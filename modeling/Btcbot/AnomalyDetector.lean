import Btcbot.Degrade
import Mathlib.Algebra.Order.Field.Rat
import Mathlib.Algebra.Order.Group.Abs
import Mathlib.Algebra.Order.Ring.Int

/-!
# What a cycle detects

Market data too old, a slow cycle, many rejections, cursors that stand still, a clock that is
off and an equity the ledger does not bear out each make one event.
-/
namespace AnomalyDetector

open PyData
open Degrade (AnomalyCode AnomalyEvent Severity Instant)

structure AnomalyDetectorConfig where
  staleMarketDataSeconds : ℤ := 30
  rejectSpikeThreshold : ℤ := 3
  latencySpikeMs : Option ℤ := some 2000
  cursorStallCycles : ℤ := 5
  clockSkewSecondsThreshold : ℤ := 30
  pnlDivergenceTryWarn : ℚ := 50
  pnlDivergenceTryError : ℚ := 200
  deriving DecidableEq, Repr

/-- What a detection looks at. -/
structure Observation where
  marketDataAgeSeconds : Option (List (String × ℚ))
  rejectCount : ℤ
  cycleDurationMs : Option ℤ
  cursorStallBySymbol : Dict ℤ
  snapshotTs : Instant
  totalEquityTry : ℚ
  equityEstimate : ℚ

variable (config : AnomalyDetectorConfig) (ts : Instant) (observation : Observation)

/-- An event whose code and severity were seen is not added again. -/
def addEvent (events : List AnomalyEvent) (event : AnomalyEvent) : List AnomalyEvent :=
  if event ∈ events then events else events ++ [event]

def addWhen (found : Bool) (event : AnomalyEvent) (events : List AnomalyEvent) :
    List AnomalyEvent :=
  if found then addEvent events event else events

def staleData : Bool :=
  (observation.marketDataAgeSeconds.getD []).any fun entry =>
    (config.staleMarketDataSeconds : ℚ) < entry.2

def latencySpike : Bool :=
  match config.latencySpikeMs, observation.cycleDurationMs with
  | some threshold, some duration => threshold ≤ duration
  | _, _ => false

def rejectSpike : Bool := config.rejectSpikeThreshold ≤ observation.rejectCount

def cursorStall : Bool :=
  observation.cursorStallBySymbol.toList.any fun entry => config.cursorStallCycles ≤ entry.2

def clockSkew : Bool :=
  config.clockSkewSecondsThreshold * 1000000 < |ts - observation.snapshotTs|

def divergence : Option Severity :=
  let absDiff := |observation.totalEquityTry - observation.equityEstimate|
  if config.pnlDivergenceTryError ≤ absDiff then some .error
  else if config.pnlDivergenceTryWarn ≤ absDiff then some .warn
  else none

/-- The first five findings, which only warn. -/
def warnings : List AnomalyEvent :=
  [] |> addWhen (staleData config observation) ⟨.staleMarketData, .warn⟩
    |> addWhen (latencySpike config observation) ⟨.exchangeLatencySpike, .warn⟩
    |> addWhen (rejectSpike config observation) ⟨.orderRejectSpike, .warn⟩
    |> addWhen (cursorStall config observation) ⟨.cursorStall, .warn⟩
    |> addWhen (clockSkew config ts observation) ⟨.clockSkew, .warn⟩

def detect : List AnomalyEvent :=
  match divergence config observation with
  | some severity => addEvent (warnings config ts observation) ⟨.pnlDivergence, severity⟩
  | none => warnings config ts observation

theorem mem_addEvent {events : List AnomalyEvent} {event other : AnomalyEvent} :
    other ∈ addEvent events event ↔ other ∈ events ∨ other = event := by
  unfold addEvent
  split
  · next hin => exact ⟨.inl, fun h => h.elim id fun heq => heq ▸ hin⟩
  · simp

@[simp] theorem mem_addWhen {found : Bool} {events : List AnomalyEvent}
    {event other : AnomalyEvent} :
    other ∈ addWhen found event events ↔ other ∈ events ∨ found = true ∧ other = event := by
  unfold addWhen
  split
  · next hfound => rw [mem_addEvent, and_iff_right hfound]
  · next hfound => exact (or_iff_left fun h => hfound h.1).symm

theorem warnings_warn {event : AnomalyEvent} (h : event ∈ warnings config ts observation) :
    event.severity = .warn := by
  simp only [warnings, mem_addWhen, List.not_mem_nil, false_or] at h
  rcases h with (((⟨-, rfl⟩ | ⟨-, rfl⟩) | ⟨-, rfl⟩) | ⟨-, rfl⟩) | ⟨-, rfl⟩ <;> rfl

/-- An error is detected just when the two equities are as far apart as the configuration calls
an error. -/
theorem error_mem_detect : (∃ event ∈ detect config ts observation, event.severity = .error) ↔
    config.pnlDivergenceTryError ≤ |observation.totalEquityTry - observation.equityEstimate| := by
  have hwarn {event : AnomalyEvent} (hin : event ∈ warnings config ts observation)
      (herror : event.severity = .error) : False := by
    rw [warnings_warn config ts observation hin] at herror
    cases herror
  unfold detect divergence
  dsimp only
  split_ifs with hfar hnear
  · exact iff_of_true ⟨_, mem_addEvent.mpr (.inr rfl), rfl⟩ hfar
  · refine iff_of_false ?_ hfar
    rintro ⟨event, hevent, herror⟩
    rcases mem_addEvent.mp hevent with hin | rfl
    · exact hwarn hin herror
    · cases herror
  · exact iff_of_false (fun ⟨event, hin, herror⟩ => hwarn hin herror) hfar

theorem cursorStall_mem_detect : ⟨.cursorStall, .warn⟩ ∈ detect config ts observation ↔
    cursorStall config observation = true := by
  unfold detect
  cases divergence config observation with
  | none => simp [warnings]
  | some severity => simp [warnings, mem_addEvent]

/-- A cursor stalls where one of its symbols has stood still for that many cycles. -/
theorem cursorStall_iff : cursorStall config observation = true ↔
    ∃ (symbol : String) (cycles : ℤ), observation.cursorStallBySymbol[symbol]? = some cycles ∧
      config.cursorStallCycles ≤ cycles := by
  rw [cursorStall, List.any_eq_true]
  constructor
  · rintro ⟨⟨symbol, cycles⟩, hentry, hcycles⟩
    exact ⟨symbol, cycles, Std.ExtTreeMap.mem_toList_iff_getElem?_eq_some.mp hentry,
      of_decide_eq_true hcycles⟩
  · rintro ⟨symbol, cycles, hentry, hcycles⟩
    exact ⟨⟨symbol, cycles⟩, Std.ExtTreeMap.mem_toList_iff_getElem?_eq_some.mpr hentry,
      decide_eq_true hcycles⟩

end AnomalyDetector
