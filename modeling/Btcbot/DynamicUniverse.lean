import Btcbot.PyData
import Btcbot.Runs
import Mathlib.Algebra.Field.Rat
import Mathlib.Data.List.Dedup
import Mathlib.Data.List.Sort
import Mathlib.Data.Prod.Lex

/-!
# The dynamic universe

A call returns the latest stored selection while that is fresh, and otherwise scans the
order books for candidates and selects the best of them. Either way it stores a row, and
freshness is read off the latest row of either kind.
-/
namespace DynamicUniverse

open PyData

section Data

/-- Microseconds since the epoch. -/
abbrev Instant := ℤ

def minutes (n : ℤ) : ℤ := n * 60000000

/-- The settings of the dynamic universe, as validated. -/
structure Settings where
  dynamicUniverseEnabled : Bool := true
  universeTopN : ℤ := 5
  universeSpreadMaxBps : ℚ := 60
  universeMinDepthTry : ℚ := 50000
  universeExcludeStables : Bool := true
  universeExcludeSymbols : List String := ["USDTTRY", "USDCTRY", "EURTRY"]
  universeRefreshMinutes : ℤ := 60
  universeHistoryBucketMinutes : ℤ := 5
  universeHistoryToleranceMinutes : ℤ := 30
  universeOrderbookMaxAgeSeconds : ℤ := 20
  universeSymbolCooldownMinutes : ℤ := 60
  universeProbationMinutes : ℤ := 120
  universeRejectWindowMinutes : ℤ := 240
  universeRejectPenaltyWeight : ℚ := 1 / 20
  universeReject1123Threshold : ℤ := 3
  universeChurnMaxPerDay : ℤ := 1
  universeScanBudgetSymbols : ℤ := 50
  universeMaxOrderbookRequestsPerCycle : ℤ := 50
  universeScoreWeightMomentum : ℚ := 1
  universeScoreWeightSpread : ℚ := 1 / 100
  universeScoreWeightDepth : ℚ := 1 / 10
  universeRefreshMinutes_pos : 1 ≤ universeRefreshMinutes := by decide
  universeChurnMaxPerDay_pos : 1 ≤ universeChurnMaxPerDay := by decide

structure OrderbookMetrics where
  midPrice : ℚ
  spreadBps : ℚ
  depthTry : Option ℚ
  observedAt : Instant

/-- The exchange of a call: its pair symbols, and the order book of a symbol with the
diagnostics that reading it counts. -/
structure Exchange where
  pairSymbols : List String
  orderbookMetrics : String → Option OrderbookMetrics × List String

structure Call where
  exchange : Exchange
  now : Instant
  cycleId : String

structure Candidate where
  symbol : String
  momentum24h : ℚ
  spreadBps : ℚ
  depthTry : ℚ
  rejectPenalty : ℚ
  score : ℚ
  deriving DecidableEq, Repr

structure SymbolState where
  lastSelectedTs : Option Instant := none
  cooldownUntilTs : Option Instant := none
  probationUntilTs : Option Instant := none
  rejectWindowStartTs : Option Instant := none
  rejectCounts : Dict ℤ := ∅
  updatedAtTs : Option Instant := none

structure PriceSnapshot where
  pairSymbol : String
  tsBucket : Instant
  midPrice : ℚ
  deriving DecidableEq, Repr

structure Filters where
  topN : ℤ
  spreadMaxBps : ℚ
  minDepthTry : ℚ
  excludeStables : Bool
  excludeSymbols : List String
  orderbookMaxAgeSeconds : ℤ
  churnMaxPerDay : ℤ
  scanBudgetSymbols : ℤ
  orderbookRequestCap : ℤ
  diagnostics : Dict ℕ

/-- A row of the selections, by cycle id. -/
structure CycleRow where
  cycleId : String
  ts : Instant
  selectedSymbols : List String
  scores : Dict ℚ
  scoreBreakdown : Dict Candidate
  filters : Filters
  ineligibleCounts : Dict ℕ
  churnCount : ℕ
  refreshed : Bool

structure World where
  cycles : List CycleRow := []
  symbols : Dict SymbolState := ∅
  prices : List PriceSnapshot := []

structure Selection where
  selectedSymbols : List String := []
  scores : Dict ℚ := ∅
  filters : Option Filters := none
  ineligibleCounts : Dict ℕ := ∅
  refreshed : Bool

end Data

section Store

def saveDynamicUniverseSelection (cycles : List CycleRow) (row : CycleRow) : List CycleRow :=
  if cycles.any fun stored => stored.cycleId = row.cycleId then
    cycles.map fun stored => if stored.cycleId = row.cycleId then row else stored
  else cycles ++ [row]

/-- The row of the latest time, the last of those that tie. -/
def getLatestDynamicUniverseSelection : List CycleRow → Option CycleRow
  | [] => none
  | row :: cycles =>
    match getLatestDynamicUniverseSelection cycles with
    | none => some row
    | some other => if row.ts ≤ other.ts then some other else some row

/-- The UTC day of a time. -/
def dayOf (ts : Instant) : ℤ := ts / 86400000000

def getDynamicUniverseChurnCountForDay (cycles : List CycleRow) (now : Instant) : ℕ :=
  let rows := (cycles.filter fun row => dayOf row.ts = dayOf now).insertionSort
    fun a b => a.ts ≤ b.ts
  (Runs.pairs (rows.map CycleRow.selectedSymbols)).countP fun pair => pair.2 ≠ pair.1

def symbolState (symbols : Dict SymbolState) (symbol : String) : SymbolState :=
  symbols[symbol]?.getD {}

def upsertUniversePriceSnapshot (prices : List PriceSnapshot) (snapshot : PriceSnapshot) :
    List PriceSnapshot :=
  let same (stored : PriceSnapshot) : Bool :=
    stored.pairSymbol = snapshot.pairSymbol && stored.tsBucket = snapshot.tsBucket
  if prices.any same then prices.map fun stored => if same stored then snapshot else stored
  else prices ++ [snapshot]

/-- Whole seconds between a snapshot and a time, and the time of the snapshot. -/
def distanceKey (target : Instant) (snapshot : PriceSnapshot) : ℕ ×ₗ ℤ :=
  toLex ((snapshot.tsBucket / 1000000 - target / 1000000).natAbs, snapshot.tsBucket)

def NearerThan (target : Instant) (a b : PriceSnapshot) : Prop :=
  distanceKey target a ≤ distanceKey target b

instance (target : Instant) : DecidableRel (NearerThan target) := fun a b =>
  inferInstanceAs (Decidable (distanceKey target a ≤ distanceKey target b))

def getUniversePriceLookback (prices : List PriceSnapshot) (pairSymbol : String)
    (target tolerance : ℤ) : Option ℚ :=
  let near := prices.filter fun snapshot =>
    snapshot.pairSymbol = pairSymbol ∧ target - tolerance ≤ snapshot.tsBucket ∧
      snapshot.tsBucket ≤ target + tolerance
  ((near.insertionSort (NearerThan target)).head?).map PriceSnapshot.midPrice

end Store

section Scan

variable (log : ℚ → ℚ) (settings : Settings) (call : Call)

def fetchTryPairs : List String :=
  let normalized := (call.exchange.pairSymbols.filter (· ≠ "")).map canonicalSymbol
  ((normalized.filter fun symbol => symbol.endsWith "TRY").dedup).insertionSort (· ≤ ·)

def stableTokens : List String := ["USDT", "USDC", "DAI", "TUSD", "FDUSD", "BUSD"]

def isStableSymbol (symbol : String) : Bool :=
  let base := if symbol.endsWith "TRY" then String.ofList (symbol.toList.dropLast.dropLast.dropLast)
    else symbol
  base ∈ stableTokens

def bucketTs (ts : Instant) (bucketMinutes : ℤ) : Instant :=
  ts - ts % 3600000000 + minutes (ts % 3600000000 / 60000000 / bucketMinutes * bucketMinutes)

/-- A deadline of a symbol that has not passed. -/
def isPending (deadline : Option Instant) : Bool := deadline.any (call.now < ·)

def rejectCountsOf (state : SymbolState) : Dict ℤ :=
  match state.rejectWindowStartTs with
  | none => ∅
  | some start =>
    if minutes settings.universeRejectWindowMinutes < call.now - start then ∅
    else state.rejectCounts

def inc (counts : Dict ℕ) (key : String) : Dict ℕ := counts.insert key (counts[key]?.getD 0 + 1)

/-- The variables of the scan. -/
structure Scan where
  world : World
  candidates : List Candidate := []
  ineligibleCounts : Dict ℕ := ∅
  diagnostics : Dict ℕ := ∅
  orderbookRequests : ℤ := 0

def Scan.drop (scan : Scan) (reason : String) : Scan :=
  { scan with ineligibleCounts := inc scan.ineligibleCounts reason }

def orderbookRequestCap : ℤ := max 1 settings.universeMaxOrderbookRequestsPerCycle

def scanBudgetSymbols : ℤ := max settings.universeTopN settings.universeScanBudgetSymbols

def candidateOf (symbol : String) (metrics : OrderbookMetrics) (depth lookback : ℚ) (rejects : ℤ) :
    Candidate :=
  let momentum := metrics.midPrice / lookback - 1
  let penalty := settings.universeRejectPenaltyWeight * rejects
  { symbol := symbol
    momentum24h := momentum
    spreadBps := metrics.spreadBps
    depthTry := depth
    rejectPenalty := penalty
    score := settings.universeScoreWeightMomentum * momentum -
      settings.universeScoreWeightSpread * metrics.spreadBps +
      settings.universeScoreWeightDepth * log (depth + 1) - penalty }

/-- The symbol whose order book is fresh and deep, against its price of a day ago. -/
def weigh (symbol : String) (metrics : OrderbookMetrics) (depth : ℚ) (scan : Scan) : Scan :=
  let prices := upsertUniversePriceSnapshot scan.world.prices
    ⟨symbol, bucketTs call.now settings.universeHistoryBucketMinutes, metrics.midPrice⟩
  let scan := { scan with world := { scan.world with prices := prices } }
  if settings.universeSpreadMaxBps < metrics.spreadBps then scan.drop "spread_too_wide"
  else if depth < settings.universeMinDepthTry then scan.drop "insufficient_depth"
  else
    match getUniversePriceLookback prices symbol (call.now - minutes (24 * 60))
        (minutes settings.universeHistoryToleranceMinutes) with
    | none => scan.drop "insufficient_history"
    | some lookback =>
      if lookback ≤ 0 then scan.drop "insufficient_history"
      else
        let state := symbolState scan.world.symbols symbol
        let rejectCounts := rejectCountsOf settings call state
        let rejects := rejectCounts["1123"]?.getD 0
        if settings.universeReject1123Threshold ≤ rejects then
          { scan.drop "reject_1123" with
            world :=
              { scan.world with
                symbols := scan.world.symbols.insert symbol
                  { state with
                    cooldownUntilTs :=
                      some (call.now + minutes settings.universeSymbolCooldownMinutes)
                    rejectCounts := rejectCounts
                    updatedAtTs := some call.now } } }
        else
          { scan with
            candidates := scan.candidates ++
              [candidateOf log settings symbol metrics depth lookback rejects] }

def readOrderbook (symbol : String) (scan : Scan) : Scan :=
  let (metrics, diagnostics) := call.exchange.orderbookMetrics symbol
  let scan := { scan with
    orderbookRequests := scan.orderbookRequests + 1
    diagnostics := diagnostics.foldl inc scan.diagnostics }
  match metrics with
  | none => scan.drop "orderbook_unavailable"
  | some metrics =>
    if settings.universeOrderbookMaxAgeSeconds * 1000000 < max 0 (call.now - metrics.observedAt) then
      scan.drop "stale_orderbook"
    else
      match metrics.depthTry with
      | none => scan.drop "depth_unavailable"
      | some depth => weigh log settings call symbol metrics depth scan

def scanSymbol (scan : Scan) (symbol : String) : Scan :=
  let state := symbolState scan.world.symbols symbol
  if isPending call state.cooldownUntilTs then scan.drop "cooldown"
  else if isPending call state.probationUntilTs then scan.drop "probation"
  else if symbol ∈ settings.universeExcludeSymbols.map canonicalSymbol then
    scan.drop "excluded_symbol"
  else if settings.universeExcludeStables && isStableSymbol symbol then scan.drop "stable_symbol"
  else if orderbookRequestCap settings ≤ scan.orderbookRequests then
    scan.drop "scan_budget_exhausted"
  else readOrderbook log settings call symbol scan

def scanCandidates (world : World) : Scan :=
  let symbols := fetchTryPairs call
  let scanned := symbols.take (scanBudgetSymbols settings).toNat
  let scan := scanned.foldl (scanSymbol log settings call) { world := world }
  let skipped := symbols.length - scanned.length
  if 0 < skipped then
    { scan with
      ineligibleCounts := scan.ineligibleCounts.insert "scan_budget_exhausted"
        (scan.ineligibleCounts["scan_budget_exhausted"]?.getD 0 + skipped) }
  else scan

end Scan

section Select

variable (log : ℚ → ℚ) (settings : Settings) (world : World) (call : Call)

def rankKey (candidate : Candidate) : ℚ ×ₗ String := toLex (0 - candidate.score, candidate.symbol)

def RankedBefore (a b : Candidate) : Prop := rankKey a ≤ rankKey b

instance : DecidableRel RankedBefore := fun a b =>
  inferInstanceAs (Decidable (rankKey a ≤ rankKey b))

/-- The latest row, while it is fresh. -/
def cachedRow : Option CycleRow :=
  (getLatestDynamicUniverseSelection world.cycles).filter fun row =>
    call.now - row.ts < minutes settings.universeRefreshMinutes

def previousSymbols : List String :=
  ((getLatestDynamicUniverseSelection world.cycles).map CycleRow.selectedSymbols).getD []

def ranked : List Candidate :=
  (scanCandidates log settings call world).candidates.insertionSort RankedBefore

def desired : List String :=
  ((ranked log settings world call).take settings.universeTopN.toNat).map Candidate.symbol

/-- The change desired would be one too many for the day. -/
def guarded : Bool :=
  let change := if desired log settings world call ≠ previousSymbols world then 1 else 0
  previousSymbols world ≠ [] &&
    settings.universeChurnMaxPerDay <
      ((getDynamicUniverseChurnCountForDay world.cycles call.now + change : ℕ) : ℤ)

def selected : List String :=
  if guarded log settings world call then previousSymbols world
  else desired log settings world call

def markSelected (symbols : Dict SymbolState) (symbol : String) : Dict SymbolState :=
  let state := symbolState symbols symbol
  symbols.insert symbol
    { state with
      lastSelectedTs := some call.now
      probationUntilTs :=
        state.probationUntilTs.or (some (call.now + minutes settings.universeProbationMinutes))
      updatedAtTs := some call.now }

def filtersOf (scan : Scan) : Filters where
  topN := settings.universeTopN
  spreadMaxBps := settings.universeSpreadMaxBps
  minDepthTry := settings.universeMinDepthTry
  excludeStables := settings.universeExcludeStables
  excludeSymbols := settings.universeExcludeSymbols
  orderbookMaxAgeSeconds := settings.universeOrderbookMaxAgeSeconds
  churnMaxPerDay := settings.universeChurnMaxPerDay
  scanBudgetSymbols := scanBudgetSymbols settings
  orderbookRequestCap := orderbookRequestCap settings
  diagnostics :=
    (((scan.diagnostics.insertIfNew "timestamp_parse_fail_count" 0).insert
      "depth_unavailable_count" (scan.ineligibleCounts["depth_unavailable"]?.getD 0)).insert
      "orderbook_unavailable_count" (scan.ineligibleCounts["orderbook_unavailable"]?.getD 0)).insert
      "stale_filtered_count" (scan.ineligibleCounts["stale_orderbook"]?.getD 0)

/-- The row of a selection that was computed. -/
def computedRow : CycleRow :=
  let scan := scanCandidates log settings call world
  let symbols := selected log settings world call
  let kept := (ranked log settings world call).filter fun candidate => candidate.symbol ∈ symbols
  { cycleId := call.cycleId
    ts := call.now
    selectedSymbols := symbols
    scores := Std.ExtTreeMap.ofList (kept.map fun candidate => (candidate.symbol, candidate.score))
    scoreBreakdown := Std.ExtTreeMap.ofList (kept.map fun candidate => (candidate.symbol, candidate))
    filters := filtersOf settings scan
    ineligibleCounts :=
      if guarded log settings world call then inc scan.ineligibleCounts "churn_guard"
      else scan.ineligibleCounts
    churnCount := if symbols ≠ previousSymbols world then 1 else 0
    refreshed := !guarded log settings world call }

/-- A stored row as the row of another cycle. -/
def servedRow (row : CycleRow) : CycleRow :=
  { row with cycleId := call.cycleId, ts := call.now, refreshed := false }

def selectionOf (row : CycleRow) : Selection :=
  ⟨row.selectedSymbols, row.scores, some row.filters, row.ineligibleCounts, row.refreshed⟩

def World.save (world : World) (row : CycleRow) : World :=
  { world with cycles := saveDynamicUniverseSelection world.cycles row }

def select : World × Selection :=
  if settings.dynamicUniverseEnabled then
    match cachedRow settings world call with
    | some row => (world.save (servedRow call row), selectionOf (servedRow call row))
    | none =>
      let row := computedRow log settings world call
      let scanned := (scanCandidates log settings call world).world
      let marked := row.selectedSymbols.foldl (markSelected settings call) scanned.symbols
      ({ scanned with symbols := marked }.save row, selectionOf row)
  else (world, { refreshed := false })

end Select

end DynamicUniverse
