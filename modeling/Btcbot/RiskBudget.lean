import Btcbot.Capital
import Btcbot.Degrade
import Mathlib.Algebra.Order.Group.MinMax
import Mathlib.Order.Bounds.Basic

/-!
# The risk budget decision of a cycle

A decision measures the equity of its cycle against the peak the store holds, and is stored
with the new peak. Writing it may fail, and the cycle goes on: a peak is lost then. Over any
run the peak is that of the cycles whose decision was stored.
-/
namespace RiskBudget

open PyData Capital
open Degrade (Mode Instant sortedSet)

section Data

structure RiskLimits where
  maxDailyDrawdownTry : ℚ
  maxDrawdownTry : ℚ
  maxGrossExposureTry : ℚ
  maxPositionPct : ℚ
  maxOrderNotionalTry : ℚ
  minCashTry : Option ℚ := none
  maxFeeTryPerDay : Option ℚ := none
  deriving DecidableEq, Repr

inductive VolatilityRegime where
  | low
  | normal
  | high
  deriving DecidableEq, Repr

structure RiskSignals where
  equityTry : ℚ
  peakEquityTry : ℚ
  drawdownTry : ℚ
  dailyPnlTry : ℚ
  grossExposureTry : ℚ
  largestPositionPct : ℚ
  feesTryToday : ℚ
  volatilityState : Option VolatilityRegime := none
  lossStreak : Option ℕ := none
  missingMarkPrices : List String := []
  missingCurrencies : List String := []
  deriving DecidableEq, Repr

structure RiskDecision where
  mode : Mode
  reasons : List String
  limits : RiskLimits
  signals : RiskSignals
  decidedAt : Instant
  deriving DecidableEq, Repr

structure PnlReport where
  equityEstimate : ℚ
  realizedPnlTotal : ℚ
  feesTotalTry : Option ℚ
  feesTotalByCurrency : Dict ℚ := ∅
  feeConversionMissingCurrencies : List String := []

structure Position where
  symbol : String
  qty : ℚ
  avgCostTry : ℚ
  deriving DecidableEq, Repr

structure PnLSnapshot where
  totalEquityTry : ℚ
  realizedTodayTry : ℚ
  deriving DecidableEq, Repr

structure Settings where
  stage7MaxConsecutiveLosses : ℤ := 3
  stage7VolLookback : ℤ := 20
  stage7VolLowThreshold : ℚ := 1 / 400
  stage7VolHighThreshold : ℚ := 1 / 50
  deriving DecidableEq, Repr

structure SelfFinancingPolicy extends Capital.SelfFinancingPolicy where
  lossStreakReduceMultiplier : ℚ := 1 / 2
  drawdownReduceMultiplier : ℚ := 1 / 4
  haltDrawdownRatio : ℚ := 3 / 20
  haltDailyLossRatio : ℚ := 1 / 20
  maxExposureRatio : ℚ := 6 / 5
  maxOrderRatio : ℚ := 1 / 5

structure RiskBudgetView where
  tradingCapitalTry : ℚ
  treasuryTry : ℚ
  availableRiskCapitalTry : ℚ
  dailyLossLimitTry : ℚ
  drawdownHaltLimitTry : ℚ
  maxGrossExposureTry : ℚ
  maxOrderNotionalTry : ℚ
  positionSizingMultiplier : ℚ
  mode : Mode
  deriving DecidableEq, Repr

structure BudgetDecision where
  riskDecision : RiskDecision
  budgetView : RiskBudgetView
  deriving DecidableEq, Repr

def BudgetDecision.mode (decision : BudgetDecision) : Mode := decision.riskDecision.mode

/-- What a decision is given, the snapshots latest first. -/
structure Call where
  cycleId : String
  limits : RiskLimits
  pnlReport : PnlReport
  positions : List Position
  markPrices : Dict ℚ
  realizedTodayTry : ℚ
  killSwitchActive : Bool
  liveMode : Bool := false
  tradableSymbols : Option (List String) := none
  snapshots : List PnLSnapshot := []
  now : Instant

/-- The row of the store, with the days as numbered from the epoch. -/
structure RiskStateRow where
  currentMode : String
  peakEquityTry : ℚ
  peakEquityDate : ℤ
  feesTryToday : ℚ
  feesDay : ℤ
  deriving DecidableEq, Repr

structure World where
  riskState : Option RiskStateRow := none
  capital : Option CapitalState := none
  riskDecisions : Dict (RiskDecision × Option String) := ∅

end Data

section Codec

def modeText : Mode → String
  | .normal => "NORMAL"
  | .reduceRiskOnly => "REDUCE_RISK_ONLY"
  | .observeOnly => "OBSERVE_ONLY"

def dumpRiskMode (mode : Option Mode) : Option String := mode.map modeText

def riskModeAliases : List (String × Mode) :=
  [("NORMAL", .normal), ("NORMAL_MODE", .normal), ("REDUCE_RISK_ONLY", .reduceRiskOnly),
    ("REDUCE_ONLY", .reduceRiskOnly), ("REDUCE_RISK", .reduceRiskOnly),
    ("OBSERVE_ONLY", .observeOnly), ("OBSERVE", .observeOnly)]

def parseRiskMode (value : Option String) : Option Mode :=
  value.bind fun text => riskModeAliases.lookup (strip text).toUpper

theorem parse_dump (mode : Option Mode) : parseRiskMode (dumpRiskMode mode) = mode := by
  cases mode with
  | none => rfl
  | some mode => cases mode <;> decide +kernel

end Codec

section Signals

def decideMode (limits : RiskLimits) (signals : RiskSignals) : Mode × List String :=
  if limits.maxDrawdownTry ≤ signals.drawdownTry ∨
      signals.dailyPnlTry ≤ -limits.maxDailyDrawdownTry then
    (.observeOnly, ["DRAWDOWN_LIMIT"])
  else if limits.maxGrossExposureTry < signals.grossExposureTry ∨
      limits.maxPositionPct < signals.largestPositionPct then
    (.reduceRiskOnly, ["EXPOSURE_LIMIT"])
  else if limits.maxFeeTryPerDay.any (· < signals.feesTryToday) then
    (.reduceRiskOnly, ["FEE_BUDGET"])
  else (.normal, ["OK"])

def resolvePeakEquity (current : Option RiskStateRow) (equityTry : ℚ) : ℚ :=
  match current with
  | none => equityTry
  | some row => max row.peakEquityTry equityTry

variable (positions : List Position) (markPrices : Dict ℚ)

def notional (position : Position) : ℚ :=
  |position.qty * markPrices[position.symbol]?.getD position.avgCostTry|

def computeGrossExposure : ℚ :=
  positions.foldl (fun total position => total + notional markPrices position) 0

def computeLargestPositionPct (equityTry : ℚ) : ℚ :=
  if equityTry ≤ 0 then 0
  else
    positions.foldl (fun largest position => max largest (notional markPrices position)) 0 /
      equityTry

/-- The fees, and whether a live cycle has to do without them. -/
def resolveFeesToday (report : PnlReport) (liveMode : Bool) : ℚ × Bool :=
  match report.feesTotalTry with
  | some fees => (fees, false)
  | none => (report.feesTotalByCurrency["TRY"]?.getD 0, liveMode)

def computeConsecutiveLossStreak (snapshotsDesc : List PnLSnapshot) (lookback : ℤ) : ℕ :=
  if lookback ≤ 0 then 0
  else ((snapshotsDesc.take lookback.toNat).takeWhile fun snapshot =>
    snapshot.realizedTodayTry < 0).length

/-- The regime is read off the deviation of the log returns between the equities. -/
def computeVolatilityRegime (deviation : List ℚ → ℚ) (snapshotsDesc : List PnLSnapshot)
    (lookback : ℤ) (lowThreshold highThreshold : ℚ) : VolatilityRegime :=
  if lookback < 2 then .normal
  else
    let equities := ((snapshotsDesc.take lookback.toNat).reverse.filter fun snapshot =>
      0 < snapshot.totalEquityTry).map PnLSnapshot.totalEquityTry
    if equities.length < 6 then .normal
    else if deviation equities ≤ lowThreshold then .low
    else if highThreshold ≤ deviation equities then .high
    else .normal

end Signals

section Budget

variable (policy : SelfFinancingPolicy)

/-- The part of full size left by losing and by volatile days. -/
def sizingMultiplier (lossStreak : ℕ) (regime : VolatilityRegime) : ℚ :=
  let streaked := if 3 ≤ lossStreak then min 1 policy.lossStreakReduceMultiplier else 1
  if regime = .high then min streaked policy.drawdownReduceMultiplier else streaked

def evaluate (capital : CapitalState) (peakEquityTry realizedPnlTodayTry : ℚ) (lossStreak : ℕ)
    (regime : VolatilityRegime) : RiskBudgetView :=
  let available := quantizeMoney (max capital.tradingCapital 0)
  let dailyLossLimit := quantizeMoney (available * policy.haltDailyLossRatio)
  let drawdownLimit := quantizeMoney (max peakEquityTry 0 * policy.haltDrawdownRatio)
  let maxExposure := quantizeMoney (available * policy.maxExposureRatio)
  let maxOrder := quantizeMoney (available * policy.maxOrderRatio)
  let sized := sizingMultiplier policy lossStreak regime
  let equityTry := quantizeMoney (capital.tradingCapital + capital.treasury)
  let drawdownTry := max 0 (peakEquityTry - equityTry)
  let halted := realizedPnlTodayTry ≤ -dailyLossLimit ∨ drawdownLimit ≤ drawdownTry
  let multiplier := if halted then 0 else sized
  { tradingCapitalTry := available
    treasuryTry := quantizeMoney (max capital.treasury 0)
    availableRiskCapitalTry := available
    dailyLossLimitTry := dailyLossLimit
    drawdownHaltLimitTry := drawdownLimit
    maxGrossExposureTry := quantizeMoney (maxExposure * multiplier)
    maxOrderNotionalTry := quantizeMoney (maxOrder * multiplier)
    positionSizingMultiplier := multiplier
    mode := if halted then .observeOnly else if multiplier < 1 then .reduceRiskOnly else .normal }

end Budget

section Decide

variable (settings : Settings) (policy : SelfFinancingPolicy) (deviation : List ℚ → ℚ)
  (world : World) (call : Call)

/-- The symbols a live cycle has no price for. -/
def missingMarks : List String :=
  if call.liveMode then
    sortedSet ((call.tradableSymbols.getD (call.positions.map Position.symbol)).filter
      fun symbol => call.markPrices[symbol]?.all (· ≤ 0))
  else []

def feesToday : ℚ := (resolveFeesToday call.pnlReport call.liveMode).1

def feesUnknown : Bool := (resolveFeesToday call.pnlReport call.liveMode).2

def peakEquity : ℚ := resolvePeakEquity world.riskState call.pnlReport.equityEstimate

def signals : RiskSignals where
  equityTry := call.pnlReport.equityEstimate
  peakEquityTry := peakEquity world call
  drawdownTry := max 0 (peakEquity world call - call.pnlReport.equityEstimate)
  dailyPnlTry := call.realizedTodayTry
  grossExposureTry := computeGrossExposure call.positions call.markPrices
  largestPositionPct :=
    computeLargestPositionPct call.positions call.markPrices call.pnlReport.equityEstimate
  feesTryToday := feesToday call
  missingMarkPrices := missingMarks call
  missingCurrencies := sortedSet call.pnlReport.feeConversionMissingCurrencies

/-- What overrides the limits, the first that holds. -/
def decidedMode : Mode × List String :=
  if call.killSwitchActive then (.observeOnly, ["kill_switch_active"])
  else if call.liveMode ∧ missingMarks call ≠ [] then
    (.observeOnly, ["mark_price_missing_fail_closed",
      "missing_symbols_count=" ++ toString (missingMarks call).length])
  else if call.pnlReport.feeConversionMissingCurrencies ≠ [] then
    (.reduceRiskOnly, ["fee_conversion_missing_rate"])
  else if feesUnknown call ∧ call.liveMode then (.reduceRiskOnly, ["fees_unknown_live"])
  else decideMode call.limits (signals world call)

/-- The row a first decision seeds. -/
def seedCapital : CapitalState where
  tradingCapital := call.pnlReport.equityEstimate
  treasury := 0
  lastRealizedPnlTotal := call.pnlReport.realizedPnlTotal
  lastEventCount := 0
  lastCheckpointId := none
  lastCycleId := call.cycleId

def loadOrInitCapital : CapitalState := world.capital.getD (seedCapital call)

def lossStreak : ℕ :=
  computeConsecutiveLossStreak call.snapshots settings.stage7MaxConsecutiveLosses

def volatilityRegime : VolatilityRegime :=
  computeVolatilityRegime deviation call.snapshots settings.stage7VolLookback
    settings.stage7VolLowThreshold settings.stage7VolHighThreshold

def budgetView : RiskBudgetView :=
  evaluate policy (loadOrInitCapital world call) (peakEquity world call) call.realizedTodayTry
    (lossStreak settings call) (volatilityRegime settings deviation call)

def budgetMultiplier : ℚ :=
  let multiplier := (budgetView settings policy deviation world call).positionSizingMultiplier
  match (decidedMode world call).1 with
  | .observeOnly => 0
  | .reduceRiskOnly =>
    let reduced := min multiplier (1 / 2)
    if "fee_conversion_missing_rate" ∈ (decidedMode world call).2 then min reduced (1 / 4)
    else reduced
  | .normal => multiplier

def computeDecision : BudgetDecision where
  riskDecision :=
    { mode := (decidedMode world call).1
      reasons := (decidedMode world call).2
      limits := call.limits
      signals := { signals world call with
        volatilityState := some (volatilityRegime settings deviation call)
        lossStreak := some (lossStreak settings call) }
      decidedAt := call.now }
  budgetView :=
    { budgetView settings policy deviation world call with
      positionSizingMultiplier := budgetMultiplier settings policy deviation world call
      mode := (decidedMode world call).1 }

def prevMode : Option Mode := parseRiskMode (world.riskState.map RiskStateRow.currentMode)

def dayOf (now : Instant) : ℤ := now / 86400000000

/-- Both rows are written, or neither. -/
def persistDecision : World :=
  let decision := computeDecision settings policy deviation world call
  { world with
    riskState := some
      { currentMode := modeText decision.mode
        peakEquityTry := peakEquity world call
        peakEquityDate := dayOf call.now
        feesTryToday := feesToday call
        feesDay := dayOf call.now }
    riskDecisions := world.riskDecisions.insert call.cycleId
      (decision.riskDecision, dumpRiskMode (prevMode world)) }

end Decide

section Runs

/-- A cycle, with whether its decision could be written, or a checkpoint of the capital. -/
inductive Event where
  | cycle (call : Call) (stored : Bool)
  | checkpoint (call : CheckpointCall)

variable (settings : Settings) (policy : SelfFinancingPolicy) (deviation : List ℚ → ℚ)

def step (world : World) : Event → World
  | .cycle call stored =>
    let seeded := { world with capital := some (loadOrInitCapital world call) }
    if stored then persistDecision settings policy deviation seeded call else seeded
  | .checkpoint call =>
    { world with capital := storeAfter policy.toSelfFinancingPolicy world.capital call }

abbrev run (world : World) (events : List Event) : World :=
  Runs.run (step settings policy deviation) world events

/-- The equity of a cycle whose decision is stored. -/
def Event.storedEquity : Event → Option ℚ
  | .cycle call true => some call.pnlReport.equityEstimate
  | _ => none

def storedEquities (events : List Event) : List ℚ := events.filterMap Event.storedEquity

/-- The equities the peak of the store stands for. -/
def heldEquities (start : World) (events : List Event) : List ℚ :=
  (start.riskState.map RiskStateRow.peakEquityTry).toList ++ storedEquities events

theorem heldEquities_concat (start : World) (events : List Event) (event : Event) :
    heldEquities start (events ++ [event]) =
      heldEquities start events ++ event.storedEquity.toList := by
  have hlast : storedEquities (events ++ [event]) =
      storedEquities events ++ event.storedEquity.toList := by
    rw [storedEquities, List.filterMap_append, storedEquities]
    cases hequity : event.storedEquity with
    | none => simp [hequity]
    | some equity => simp [hequity]
  rw [heldEquities, heldEquities, hlast, List.append_assoc]

/-- The peak is the greatest of its equities, and stands for some. -/
def Peaked (equities : List ℚ) (world : World) : Prop :=
  match world.riskState with
  | none => equities = []
  | some row => IsGreatest {equity | equity ∈ equities} row.peakEquityTry

theorem peaked_start (start : World) : Peaked (heldEquities start []) start := by
  unfold Peaked heldEquities
  cases start.riskState with
  | none => rfl
  | some row => exact ⟨List.mem_singleton_self _, fun equity h => (List.mem_singleton.mp h).le⟩

theorem Peaked.concat {equities : List ℚ} {world : World} (h : Peaked equities world)
    (equity : ℚ) :
    IsGreatest {e | e ∈ equities ++ [equity]} (resolvePeakEquity world.riskState equity) := by
  have hset : {e | e ∈ equities ++ [equity]} = Insert.insert equity {e | e ∈ equities} := by
    ext e
    simp [or_comm]
  rw [hset]
  unfold Peaked at h
  unfold resolvePeakEquity
  cases hrow : world.riskState with
  | none =>
    rw [hrow] at h
    simp [h, isGreatest_singleton]
  | some row =>
    rw [hrow] at h
    have hinsert : IsGreatest (Insert.insert equity {e | e ∈ equities})
        (max equity row.peakEquityTry) := h.insert equity
    rw [max_comm] at hinsert
    exact hinsert

theorem peaked_step {equities : List ℚ} {world : World} (h : Peaked equities world)
    (event : Event) :
    Peaked (equities ++ event.storedEquity.toList)
      (step settings policy deviation world event) := by
  cases event with
  | checkpoint call => simpa [Event.storedEquity, step, Peaked] using h
  | cycle call stored =>
    cases stored with
    | false => simpa [Event.storedEquity, step, Peaked] using h
    | true => exact h.concat call.pnlReport.equityEstimate

theorem peaked_run (start : World) (events : List Event) :
    Peaked (heldEquities start events) (run settings policy deviation start events) := by
  refine Runs.run_induct (I := fun taken world => Peaked (heldEquities start taken) world)
    (fun taken event world h => ?_) start events (peaked_start start)
  rw [heldEquities_concat]
  exact peaked_step settings policy deviation h event

end Runs

section Modes

variable (settings : Settings) (policy : SelfFinancingPolicy) (deviation : List ℚ → ℚ)

/-- What every decision in the normal mode has passed. -/
structure MayOpen (equities : List ℚ) (call : Call) : Prop where
  killSwitch : call.killSwitchActive = false
  marked : call.liveMode = true →
    ∀ symbol ∈ call.tradableSymbols.getD (call.positions.map Position.symbol),
      ∃ mark ∈ call.markPrices[symbol]?, 0 < mark
  feesConverted : call.pnlReport.feeConversionMissingCurrencies = []
  feesKnown : call.liveMode = true → call.pnlReport.feesTotalTry ≠ none
  allowance : 0 < call.limits.maxDrawdownTry
  withinDrawdown : ∀ equity ∈ equities,
    equity - call.pnlReport.equityEstimate < call.limits.maxDrawdownTry
  withinDay : -call.limits.maxDailyDrawdownTry < call.realizedTodayTry
  withinExposure : computeGrossExposure call.positions call.markPrices ≤
    call.limits.maxGrossExposureTry
  withinPosition : computeLargestPositionPct call.positions call.markPrices
    call.pnlReport.equityEstimate ≤ call.limits.maxPositionPct
  withinFees : ∀ limit ∈ call.limits.maxFeeTryPerDay, feesToday call ≤ limit

/-- What makes a decision observe: the loss is looked at only while the fees are known. -/
def MustObserve (equities : List ℚ) (call : Call) : Prop :=
  call.killSwitchActive = true ∨
    (call.liveMode = true ∧ missingMarks call ≠ []) ∨
    (call.pnlReport.feeConversionMissingCurrencies = [] ∧
      (call.liveMode = true → call.pnlReport.feesTotalTry ≠ none) ∧
      ((call.limits.maxDrawdownTry ≤ 0 ∨ ∃ equity ∈ equities,
          call.limits.maxDrawdownTry ≤ equity - call.pnlReport.equityEstimate) ∨
        call.realizedTodayTry ≤ -call.limits.maxDailyDrawdownTry))

theorem sortedSet_nil (texts : List String) : sortedSet texts = [] ↔ texts = [] := by
  rw [sortedSet, List.eq_nil_iff_forall_not_mem, List.eq_nil_iff_forall_not_mem]
  simp only [List.mem_insertionSort, List.mem_dedup]

theorem feesUnknown_iff (call : Call) :
    (feesUnknown call = true ∧ call.liveMode = true) ↔
      ¬ (call.liveMode = true → call.pnlReport.feesTotalTry ≠ none) := by
  unfold feesUnknown resolveFeesToday
  cases call.pnlReport.feesTotalTry with
  | none => simp
  | some fees => simp

theorem missingMarks_nil (call : Call) :
    (call.liveMode = true ∧ missingMarks call ≠ []) ↔
      ¬ (call.liveMode = true →
        ∀ symbol ∈ call.tradableSymbols.getD (call.positions.map Position.symbol),
          ∃ mark ∈ call.markPrices[symbol]?, 0 < mark) := by
  have hmarked (symbol : String) : call.markPrices[symbol]?.all (· ≤ 0) = true ↔
      ¬ ∃ mark ∈ call.markPrices[symbol]?, 0 < mark := by
    cases call.markPrices[symbol]? with
    | none => simp
    | some mark => simp
  cases hlive : call.liveMode with
  | false => simp
  | true =>
    have hmissing : missingMarks call = [] ↔
        ∀ symbol ∈ call.tradableSymbols.getD (call.positions.map Position.symbol),
          ∃ mark ∈ call.markPrices[symbol]?, 0 < mark := by
      rw [missingMarks, if_pos hlive, sortedSet_nil, List.filter_eq_nil_iff]
      refine forall₂_congr fun symbol _ => ?_
      rw [hmarked, not_not]
    rw [← hmissing]
    simp

/-- The drawdown is that below any of the equities, its own included. -/
theorem drawdown_iff {equities : List ℚ} {world : World} (h : Peaked equities world)
    (call : Call) (limit : ℚ) :
    limit ≤ (signals world call).drawdownTry ↔
      limit ≤ 0 ∨ ∃ equity ∈ equities, limit ≤ equity - call.pnlReport.equityEstimate := by
  unfold Peaked at h
  simp only [signals, peakEquity, resolvePeakEquity]
  cases hrow : world.riskState with
  | none =>
    rw [hrow] at h
    simp [h]
  | some row =>
    rw [hrow] at h
    have hpeak : limit ≤ row.peakEquityTry - call.pnlReport.equityEstimate ↔
        ∃ equity ∈ equities, limit ≤ equity - call.pnlReport.equityEstimate := by
      constructor
      · exact fun hle => ⟨row.peakEquityTry, h.1, hle⟩
      · rintro ⟨equity, hmem, hle⟩
        exact hle.trans (sub_le_sub_right (h.2 hmem) _)
    rw [← hpeak, ← max_sub_sub_right, sub_self, le_max_iff, le_max_iff]
    tauto

variable {equities : List ℚ} {world : World}

theorem decideMode_normal (limits : RiskLimits) (signals : RiskSignals) :
    (decideMode limits signals).1 = .normal ↔
      (signals.drawdownTry < limits.maxDrawdownTry ∧
        -limits.maxDailyDrawdownTry < signals.dailyPnlTry) ∧
      (signals.grossExposureTry ≤ limits.maxGrossExposureTry ∧
        signals.largestPositionPct ≤ limits.maxPositionPct) ∧
      ∀ limit ∈ limits.maxFeeTryPerDay, signals.feesTryToday ≤ limit := by
  unfold decideMode
  split_ifs with hdrawdown hexposure hfees
  · refine iff_of_false (by simp) ?_
    rintro ⟨⟨hd, hp⟩, -⟩
    exact hdrawdown.elim hd.not_ge hp.not_ge
  · refine iff_of_false (by simp) ?_
    rintro ⟨-, ⟨hg, hl⟩, -⟩
    exact hexposure.elim hg.not_gt hl.not_gt
  · refine iff_of_false (by simp) ?_
    rintro ⟨-, -, hf⟩
    cases hlimit : limits.maxFeeTryPerDay with
    | none => simp [hlimit] at hfees
    | some limit =>
      rw [hlimit] at hfees
      exact (hf limit hlimit).not_gt (of_decide_eq_true hfees)
  · rw [not_or, not_le, not_le] at hdrawdown
    rw [not_or, not_lt, not_lt] at hexposure
    refine iff_of_true rfl ⟨hdrawdown, hexposure, fun limit hlimit => not_lt.mp fun hover => ?_⟩
    rw [Option.mem_def.mp hlimit] at hfees
    exact hfees (decide_eq_true hover)

theorem decideMode_observes (limits : RiskLimits) (signals : RiskSignals) :
    (decideMode limits signals).1 = .observeOnly ↔
      limits.maxDrawdownTry ≤ signals.drawdownTry ∨
        signals.dailyPnlTry ≤ -limits.maxDailyDrawdownTry := by
  unfold decideMode
  split_ifs with hdrawdown
  · exact iff_of_true rfl hdrawdown
  all_goals exact iff_of_false (by simp) hdrawdown

theorem decidedMode_normal (h : Peaked equities world) (call : Call) :
    (decidedMode world call).1 = .normal ↔ MayOpen equities call := by
  unfold decidedMode
  split_ifs with hkill hmissing hfees hunknown
  · refine iff_of_false (by simp) fun hopen => ?_
    rw [hopen.killSwitch] at hkill
    cases hkill
  · refine iff_of_false (by simp) fun hopen => ?_
    exact (missingMarks_nil call).mp hmissing hopen.marked
  · exact iff_of_false (by simp) fun hopen => hfees hopen.feesConverted
  · refine iff_of_false (by simp) fun hopen => ?_
    exact (feesUnknown_iff call).mp hunknown hopen.feesKnown
  · rw [missingMarks_nil, not_not] at hmissing
    rw [feesUnknown_iff, not_not] at hunknown
    rw [not_not] at hfees
    rw [decideMode_normal, ← not_le, drawdown_iff h, not_or, not_le, not_exists]
    simp only [not_and, not_le]
    constructor
    · rintro ⟨⟨⟨hallowance, hwithin⟩, hday⟩, ⟨hexposure, hposition⟩, hfee⟩
      exact ⟨by simpa using hkill, hmissing, hfees, hunknown, hallowance, hwithin, hday, hexposure,
        hposition, hfee⟩
    · intro hopen
      exact ⟨⟨⟨hopen.allowance, hopen.withinDrawdown⟩, hopen.withinDay⟩,
        ⟨hopen.withinExposure, hopen.withinPosition⟩, hopen.withinFees⟩

theorem decidedMode_observes (h : Peaked equities world) (call : Call) :
    (decidedMode world call).1 = .observeOnly ↔ MustObserve equities call := by
  unfold decidedMode MustObserve
  split_ifs with hkill hmissing hfees hunknown
  · exact iff_of_true rfl (.inl hkill)
  · exact iff_of_true rfl (.inr (.inl hmissing))
  · refine iff_of_false (by simp) ?_
    rintro (habs | habs | habs)
    · exact hkill habs
    · exact hmissing habs
    · exact hfees habs.1
  · refine iff_of_false (by simp) ?_
    rintro (habs | habs | habs)
    · exact hkill habs
    · exact hmissing habs
    · exact (feesUnknown_iff call).mp hunknown habs.2.1
  · rw [feesUnknown_iff, not_not] at hunknown
    rw [decideMode_observes, drawdown_iff h, or_iff_right hkill, or_iff_right hmissing]
    exact (and_iff_right (not_not.mp hfees)).trans (and_iff_right hunknown) |>.symm

/-- The mode of a cycle, whatever cycles the store has seen. -/
theorem computeDecision_mode (start : World) (events : List Event) (call : Call) :
    let decision := computeDecision settings policy deviation
      (run settings policy deviation start events) call
    (decision.mode = .normal ↔ MayOpen (heldEquities start events) call) ∧
      (decision.mode = .observeOnly ↔ MustObserve (heldEquities start events) call) :=
  ⟨decidedMode_normal (peaked_run settings policy deviation start events) call,
    decidedMode_observes (peaked_run settings policy deviation start events) call⟩

end Modes

section Sizing

variable (settings : Settings) (policy : SelfFinancingPolicy) (deviation : List ℚ → ℚ)

/-- The capital is not halted, by the loss of the day or below the peak. -/
structure WithinBudget (capital : CapitalState) (peakEquityTry : ℚ) (call : Call) : Prop where
  day : -quantizeMoney (quantizeMoney (max capital.tradingCapital 0) * policy.haltDailyLossRatio) <
    call.realizedTodayTry
  drawdown : max 0 (peakEquityTry - quantizeMoney (capital.tradingCapital + capital.treasury)) <
    quantizeMoney (max peakEquityTry 0 * policy.haltDrawdownRatio)

variable {policy}

theorem sizingMultiplier_pos (hstreak : 0 < policy.lossStreakReduceMultiplier)
    (hvolatile : 0 < policy.drawdownReduceMultiplier) (lossStreak : ℕ)
    (regime : VolatilityRegime) : 0 < sizingMultiplier policy lossStreak regime := by
  unfold sizingMultiplier
  have hstreaked : 0 < if 3 ≤ lossStreak then min 1 policy.lossStreakReduceMultiplier else 1 := by
    split_ifs
    · exact lt_min zero_lt_one hstreak
    · exact zero_lt_one
  by_cases hregime : regime = .high
  · simpa [hregime] using ⟨hstreaked, hvolatile⟩
  · simpa [hregime] using hstreaked

theorem evaluate_multiplier (capital : CapitalState) (peakEquityTry : ℚ) (call : Call)
    (lossStreak : ℕ) (regime : VolatilityRegime)
    (hsized : 0 < sizingMultiplier policy lossStreak regime) :
    0 < (evaluate policy capital peakEquityTry call.realizedTodayTry lossStreak
        regime).positionSizingMultiplier ↔ WithinBudget policy capital peakEquityTry call := by
  simp only [evaluate]
  split_ifs with hhalted
  · refine iff_of_false (lt_irrefl 0) fun hwithin => ?_
    exact hhalted.elim hwithin.day.not_ge hwithin.drawdown.not_ge
  · rw [not_or, not_le, not_le] at hhalted
    exact iff_of_true hsized ⟨hhalted.1, hhalted.2⟩

theorem budgetMultiplier_pos (hsized : ∀ streak regime, 0 < sizingMultiplier policy streak regime)
    (world : World) (call : Call) :
    0 < budgetMultiplier settings policy deviation world call ↔
      (decidedMode world call).1 ≠ .observeOnly ∧
        WithinBudget policy (loadOrInitCapital world call) (peakEquity world call) call := by
  have hview := evaluate_multiplier (loadOrInitCapital world call) (peakEquity world call) call
    (lossStreak settings call) (volatilityRegime settings deviation call) (hsized _ _)
  unfold budgetMultiplier
  rw [← hview]
  cases (decidedMode world call).1 with
  | observeOnly => simp
  | normal => simp [budgetView]
  | reduceRiskOnly =>
    simp only [budgetView]
    split_ifs
    · simp
    · simp

/-- A cycle sizes its orders above nothing, whatever cycles the store has seen. -/
theorem sized_iff (hstreak : 0 < policy.lossStreakReduceMultiplier)
    (hvolatile : 0 < policy.drawdownReduceMultiplier) (start : World) (events : List Event)
    (call : Call) :
    let world := run settings policy deviation start events
    0 < (computeDecision settings policy deviation world
        call).budgetView.positionSizingMultiplier ↔
      ¬ MustObserve (heldEquities start events) call ∧
        ∃ peak, IsGreatest {equity | equity ∈ heldEquities start events ++
            [call.pnlReport.equityEstimate]} peak ∧
          WithinBudget policy (loadOrInitCapital world call) peak call := by
  have hpeaked := peaked_run settings policy deviation start events
  have hgreatest := hpeaked.concat call.pnlReport.equityEstimate
  simp only [computeDecision]
  rw [budgetMultiplier_pos settings deviation (sizingMultiplier_pos hstreak hvolatile), ne_eq,
    decidedMode_observes hpeaked]
  refine and_congr_right fun _ => ⟨fun hwithin => ⟨_, hgreatest, hwithin⟩, ?_⟩
  rintro ⟨peak, hpeak, hwithin⟩
  rw [hpeak.unique hgreatest] at hwithin
  exact hwithin

end Sizing

section Samples

def sampleLimits : RiskLimits where
  maxDailyDrawdownTry := 50
  maxDrawdownTry := 100
  maxGrossExposureTry := 1000
  maxPositionPct := 1 / 2
  maxOrderNotionalTry := 100

def sampleCall (equity : ℚ) : Call where
  cycleId := "c1"
  limits := sampleLimits
  pnlReport := { equityEstimate := equity, realizedPnlTotal := 0, feesTotalTry := some 0 }
  positions := []
  markPrices := ∅
  realizedTodayTry := 0
  killSwitchActive := false
  now := 0

/-- The rise to 1100 was not stored, so the fall to 950 is one of fifty. -/
theorem sampleRun_sized :
    let world := run {} {} (fun _ => 0) {} [.cycle (sampleCall 1000) true,
      .cycle (sampleCall 1100) false]
    ¬ MustObserve [1000] (sampleCall 950) ∧
      ∃ peak, IsGreatest {equity | equity ∈ ([1000] : List ℚ) ++ [950]} peak ∧
        WithinBudget {} (loadOrInitCapital world (sampleCall 950)) peak (sampleCall 950) :=
  (sized_iff {} (fun _ => 0) (by norm_num) (by norm_num) {}
    [.cycle (sampleCall 1000) true, .cycle (sampleCall 1100) false] (sampleCall 950)).mp
    (by decide +kernel)

end Samples

end RiskBudget
