import Btcbot.AllocationService
import Btcbot.Stage4Execute
import Btcbot.WhileLoop
import Mathlib.Data.Prod.Lex

/-!
# The decision pipeline of a cycle

Intents of the strategies are allocated and mapped to orders on the exchange's grid. With
scores the deploy budget is split among the symbols instead, over and over without those
whose share is too small. The largest orders are selected.
-/
namespace DecisionPipeline

open PyData AllocationService
open Stage4Execute (ExchangeRules quantizePrice quantizeQty)

section Data

structure PairInfo where
  pairSymbol : String
  status : Option String := none
  numerator : Option String := none
  denominator : Option String := none
  numeratorScale : ℤ
  denominatorScale : ℤ
  minTotalAmount : Option ℚ := none
  tickSize : Option ℚ := none
  stepSize : Option ℚ := none
  deriving DecidableEq, Repr

structure Order where
  symbol : String
  side : String
  type : String
  price : ℚ
  qty : ℚ
  status : String
  createdAt : DateTime
  updatedAt : DateTime
  clientOrderId : Option String := none
  mode : String := "dry_run"
  deriving DecidableEq, Repr

structure OrderBookSummary where
  bestBid : ℚ
  bestAsk : ℚ
  bid_pos : 0 < bestBid
  bid_le_ask : bestBid ≤ bestAsk

structure OpenOrdersSummary where
  buyCount : ℕ := 0
  sellCount : ℕ := 0
  deriving DecidableEq, Repr

structure StrategyKnobs where
  anchorPrice : Option ℚ := none
  meanReversionBps : ℚ := 50
  maxNotionalTry : ℚ := 100
  bootstrapNotionalTry : ℚ := 50

/-- The symbol is normalized and the assets of the balances in upper case. -/
structure StrategyContext where
  timestamp : DateTime
  symbol : String
  markPrice : ℚ
  orderbook : OrderBookSummary
  balances : Mapping ℚ
  position : Option PositionSummary
  openOrders : OpenOrdersSummary
  knobs : StrategyKnobs

structure SymbolInfo where
  symbol : String
  base : Option String
  quote : Option String
  active : Bool := true
  minNotionalTry : Option ℚ := none
  deriving DecidableEq, Repr

/-- The settings of planning, as validated. -/
structure Settings where
  symbols : List String
  portfolioTargets : Option String := none
  tryCashTarget : ℚ := 300
  tryCashMax : ℚ := 600
  minOrderNotionalTry : ℚ := 10
  allocationFeeBufferBps : ℚ := 20
  feeBufferRatio : ℚ := 0
  stage5MaxIntentNotionalTry : ℚ := 100
  stage5BootstrapNotionalTry : ℚ := 50
  maxPositionTryPerSymbol : ℚ := 5000
  notionalCapTryPerCycle : ℚ := 1000
  maxNotionalPerOrderTry : ℚ := 0
  investableUsageMode : String := "use_all"
  investableUsageFraction : ℚ := 1
  maxTryPerCycle : ℚ := 0
  maxOrdersPerCycle : ℤ := 2
  stage4BootstrapIntents : Bool := true
  minOrderNotionalTry_pos : 0 < minOrderNotionalTry := by decide
  allocationFeeBufferBps_nonneg : 0 ≤ allocationFeeBufferBps := by decide
  feeBufferRatio_nonneg : 0 ≤ feeBufferRatio := by decide

inductive PlanError where
  | valueError (message : String)
  | divisionByZero
  deriving DecidableEq, Repr

/-- The service as constructed: its settings, the intents of its strategies and its
universe selector. -/
structure Service where
  settings : Settings
  registry : StrategyContext → List Intent
  universeSelector : List SymbolInfo → List (String × OrderBookSummary) → List String

structure CycleInput where
  nowTs : DateTime
  balances : Mapping ℚ
  positions : Mapping PositionSummary
  markPrices : Mapping ℚ
  openOrders : List Order
  pairInfo : Option (List PairInfo)
  orderbooks : Option (Mapping OrderBookSummary) := none
  bootstrapEnabled : Bool
  liveMode : Bool
  preferredSymbols : Option (List String) := none
  aggressiveScores : Option (Mapping ℚ) := none
  budgetNotionalMultiplier : ℚ := 1

/-- A dropped action is told by its reason. -/
structure CycleDecisionReport where
  selectedUniverse : List String
  intents : List Intent
  allocationActions : List SizedAction
  allocationDecisions : List AllocationDecision
  orderRequests : List Order
  deferredOrderRequests : List Order
  mappedOrdersCount : ℕ
  droppedReasons : List String
  cashTry : ℚ
  tryCashTarget : ℚ
  investableTotalTry : ℚ
  investableThisCycleTry : ℚ
  deployBudgetTry : ℚ
  plannedTotalTry : ℚ
  unusedBudgetTry : ℚ

end Data

section Mapping

/-- The positive step, else the unit of the scale. -/
def stepOr (step : Option ℚ) (scale : ℤ) : ℚ :=
  match step with
  | some step => if 0 < step then step else 10 ^ (-scale)
  | none => 10 ^ (-scale)

def buildExchangeRules (pair : PairInfo) : ExchangeRules where
  tickSize := stepOr pair.tickSize pair.denominatorScale
  stepSize := stepOr pair.stepSize pair.numeratorScale
  minNotionalTry := pair.minTotalAmount.getD 0
  pricePrecision := pair.denominatorScale
  qtyPrecision := pair.numeratorScale

def validateMinNotional (price qty : ℚ) (rules : ExchangeRules) : Bool :=
  rules.minNotionalTry ≤ price * qty

/-- The letters and digits kept are the ASCII ones, where the source's `isalnum` keeps those of any
script. -/
def buildDeterministicClientOrderId (action : SizedAction) : String :=
  let raw := "s:" ++ action.strategyId ++ "|i:" ++ toString action.intentIndex ++ "|sym:" ++
    canonicalSymbol action.symbol ++ "|side:" ++ action.side.text
  String.ofList ((raw.toList.filter fun c => c.isAlphanum || c ∈ [':', '|', '-', '_']).take 64)

def modeOf (liveMode : Bool) : String := if liveMode then "live" else "dry_run"

def orderOf (action : SizedAction) (liveMode : Bool) (price qty : ℚ) (createdAt : DateTime) :
    Order where
  symbol := canonicalSymbol action.symbol
  side := action.side.text
  type := "limit"
  price := price
  qty := qty
  status := "new"
  createdAt := createdAt
  updatedAt := createdAt
  clientOrderId := some (buildDeterministicClientOrderId action)
  mode := modeOf liveMode

/-- The quantity raised to the minimum notional. -/
def raisedQty (price : ℚ) (rules : ExchangeRules) : ℚ :=
  ⌈rules.minNotionalTry / price / rules.stepSize⌉ * rules.stepSize

/-- The order of an action, or why the action is dropped. -/
def sizedActionToOrder (action : SizedAction) (liveMode : Bool) (markPrice : Option ℚ)
    (pairInfo : PairInfo) (createdAt : DateTime) : Except PlanError (Except String Order) :=
  match markPrice with
  | none => .ok (.error "missing_mark_price")
  | some markPrice =>
    if markPrice ≤ 0 then .ok (.error "missing_mark_price")
    else if action.qty ≤ 0 then .error (.valueError "qty must be > 0")
    else
      let rules := buildExchangeRules pairInfo
      let price := quantizePrice markPrice rules
      let qty := quantizeQty action.qty rules
      if qty ≤ 0 then .ok (.error "dropped_qty_became_zero")
      else if validateMinNotional price qty rules then
        .ok (.ok (orderOf action liveMode price qty createdAt))
      else if action.side ≠ .buy then .ok (.error "dropped_min_notional_after_quantize")
      else if price = 0 then .error .divisionByZero
      else
        let raised := raisedQty price rules
        if raised ≤ qty || !validateMinNotional price raised rules then
          .ok (.error "dropped_min_notional_after_quantize")
        else .ok (.ok (orderOf action liveMode price raised createdAt))

/-- The last pair of a symbol. -/
def pairInfoBySymbol (pairInfo : Option (List PairInfo)) : Dict PairInfo :=
  (pairInfo.getD []).foldl (fun pairs pair => pairs.insert (canonicalSymbol pair.pairSymbol) pair) ∅

def mapAction (input : CycleInput) (action : SizedAction) :
    Except PlanError (Except String Order) :=
  let symbol := canonicalSymbol action.symbol
  match (pairInfoBySymbol input.pairInfo)[symbol]? with
  | none => .ok (.error "dropped_missing_pair_info")
  | some pair =>
    sizedActionToOrder action input.liveMode (input.markPrices.get symbol) pair input.nowTs

/-- Largest notional first. -/
def rankKey (order : Order) : ℚ ×ₗ String ×ₗ String ×ₗ String :=
  toLex (0 - order.qty * order.price,
    toLex (canonicalSymbol order.symbol, toLex (order.side, order.clientOrderId.getD "")))

def RankedBefore (a b : Order) : Prop := rankKey a ≤ rankKey b

instance : DecidableRel RankedBefore := fun a b =>
  inferInstanceAs (Decidable (rankKey a ≤ rankKey b))

def selectOrdersForCycle (settings : Settings) (orderRequests : List Order) :
    List Order × List Order :=
  let ranked := orderRequests.insertionSort RankedBefore
  (ranked.take settings.maxOrdersPerCycle.toNat, ranked.drop settings.maxOrdersPerCycle.toNat)

end Mapping

section Universe

def trimmedDigits (digits : List Char) : Option ℕ :=
  if digits ≠ [] ∧ digits.all Char.isDigit then
    some (digits.foldl (fun value digit => 10 * value + (digit.toNat - 48)) 0)
  else none

/-- The text of an integer, digit groups parted by single underscores. -/
def parseInt (text : String) : Option ℤ :=
  let (sign, digits) := match (strip text).toList with
    | '-' :: digits => ((-1 : ℤ), digits)
    | '+' :: digits => (1, digits)
    | digits => (1, digits)
  let groups := digits.splitOn '_'
  if groups.all (· ≠ []) then (trimmedDigits groups.flatten).map fun value => sign * value else none

def applyPortfolioTargets (portfolioTargets : Option String) (selected : List String) :
    List String :=
  let token := (strip (portfolioTargets.getD "")).toLower
  if "max_n=".toList.isPrefixOf token.toList then
    match parseInt (String.ofList (token.toList.drop 6)) with
    | some maxN => if 0 < maxN then selected.take maxN.toNat else selected
    | none => selected
  else selected

def SymbolInfo.fromPairInfo (pair : PairInfo) : SymbolInfo where
  symbol := canonicalSymbol pair.pairSymbol
  base := pair.numerator.map String.toUpper
  quote := pair.denominator.map String.toUpper
  active :=
    let status := (strip (pair.status.getD "")).toUpper
    status = "" || status ∈ ["TRADING", "ACTIVE", "ENABLED"]
  minNotionalTry := pair.minTotalAmount

def toOrderbooks (markPrices : Mapping ℚ) : List (String × OrderBookSummary) :=
  markPrices.entries.filterMap fun entry =>
    if h : 0 < entry.2 then some (entry.1, ⟨entry.2, entry.2, h, le_refl _⟩) else none

def selectUniverse (service : Service) (input : CycleInput) : List String :=
  let fallbackSymbols := (KeyedTable.keys input.markPrices.entries).insertionSort (· ≤ ·)
  if input.preferredSymbols.getD [] ≠ [] then
    (input.preferredSymbols.getD []).map canonicalSymbol
  else if service.settings.symbols ≠ [] then service.settings.symbols.map canonicalSymbol
  else
    let symbols :=
      if input.pairInfo.getD [] ≠ [] then (input.pairInfo.getD []).map SymbolInfo.fromPairInfo
      else fallbackSymbols.map fun symbol => ⟨canonicalSymbol symbol, none, some "TRY", true, none⟩
    let selected := service.universeSelector symbols (toOrderbooks input.markPrices)
    applyPortfolioTargets service.settings.portfolioTargets
      (if selected ≠ [] then selected else fallbackSymbols)

end Universe

section Intents

def OpenOrdersSummary.count (summary : OpenOrdersSummary) (side : String) : OpenOrdersSummary :=
  if side = "buy" then { summary with buyCount := summary.buyCount + 1 }
  else { summary with sellCount := summary.sellCount + 1 }

def ordersSummary (openOrders : List Order) : Dict OpenOrdersSummary :=
  openOrders.foldl (fun summaries order =>
    summaries.insert order.symbol ((summaries[order.symbol]?.getD {}).count order.side)) ∅

/-- The intents of the strategies for a symbol that has a mark price. -/
def symbolIntents (service : Service) (input : CycleInput) (symbol : String) : List Intent :=
  match input.markPrices.get symbol with
  | none => []
  | some mark =>
    if h : 0 < mark then
      service.registry
        { timestamp := input.nowTs
          symbol := normalizeSymbol symbol
          markPrice := mark
          orderbook :=
            (input.orderbooks.bind fun books => books.get symbol).getD ⟨mark, mark, h, le_refl _⟩
          balances := input.balances.mapKeys String.toUpper
          position := input.positions.get symbol
          openOrders := (ordersSummary input.openOrders)[symbol]?.getD {}
          knobs :=
            { maxNotionalTry := service.settings.stage5MaxIntentNotionalTry
              bootstrapNotionalTry := service.settings.stage5BootstrapNotionalTry } }
    else []

def generateIntents (service : Service) (input : CycleInput) (symbols : List String) :
    List Intent :=
  if input.bootstrapEnabled then
    (symbols.insertionSort (· ≤ ·)).flatMap (symbolIntents service input)
  else []

end Intents

section Aggressive

variable (service : Service) (input : CycleInput)

/-- The scores, if the cycle has any. -/
def scoresOf : Option (Mapping ℚ) :=
  input.aggressiveScores.filter fun scores => scores.entries ≠ []

def scaledMultiplier : ℚ := max 0 input.budgetNotionalMultiplier

def aggressiveCash : ℚ := (input.balances.get "TRY").getD 0

def aggressiveInvestable : ℚ :=
  max 0 (aggressiveCash input - service.settings.tryCashTarget) * scaledMultiplier input

def aggressiveDeployBudget : ℚ :=
  aggressiveInvestable service input /
    (1 + resolveFeeBufferRatio service.settings.feeBufferRatio
      service.settings.allocationFeeBufferBps)

/-- Price, quantity and notional of a symbol's share of the budget, or why it has none. -/
def planShare (deployBudgetTry weight mark : ℚ) (pair : PairInfo) :
    Except String (ℚ × ℚ × ℚ) :=
  let rules := buildExchangeRules pair
  let notional := deployBudgetTry * weight
  let price := quantizePrice mark rules
  if price ≤ 0 then .error "dropped_invalid_price"
  else if notional / price ≤ 0 then .error "dropped_zero_qty"
  else
    let qty := quantizeQty (notional / price) rules
    if qty ≤ 0 || !validateMinNotional price qty rules then .error "dropped_min_notional"
    else .ok (price, qty, qty * price)

/-- The variables of the sharing loop. -/
structure Sharing where
  kept : List String
  plans : Dict (ℚ × ℚ × ℚ) := ∅
  droppedReasons : List String := []
  again : Bool := true

def weightScore (scores : Mapping ℚ) (symbol : String) : ℚ := max 0 ((scores.get symbol).getD 0)

/-- The weight of a symbol among those kept. -/
def weightOf (scores : Mapping ℚ) (kept : List String) (symbol : String) : ℚ :=
  let totalWeight := (kept.map (weightScore scores)).sum
  if 0 < totalWeight then weightScore scores symbol / totalWeight else 1 / kept.length

def shareOf (scores : Mapping ℚ) (kept : List String) (symbol : String) :
    Except String (ℚ × ℚ × ℚ) :=
  match (pairInfoBySymbol input.pairInfo)[symbol]? with
  | none => .error "dropped_missing_pair_info"
  | some pair =>
    planShare (aggressiveDeployBudget service input) (weightOf scores kept symbol)
      ((input.markPrices.get symbol).getD 0) pair

def shareSymbol (scores : Mapping ℚ) (kept : List String) (sharing : Sharing)
    (symbol : String) : Sharing :=
  match shareOf service input scores kept symbol with
  | .error reason =>
    { sharing with
      kept := sharing.kept.erase symbol
      droppedReasons := sharing.droppedReasons ++ [reason]
      again := true }
  | .ok plan => { sharing with plans := sharing.plans.insert symbol plan }

/-- One pass over the symbols kept. Another follows if one was dropped. -/
def sharePass (scores : Mapping ℚ) (sharing : Sharing) : Sharing :=
  sharing.kept.foldl (shareSymbol service input scores sharing.kept)
    { sharing with plans := ∅, again := false }

def eligible (selectedUniverse : List String) : List String :=
  selectedUniverse.filter fun symbol =>
    (pairInfoBySymbol input.pairInfo)[symbol]?.isSome && 0 < (input.markPrices.get symbol).getD 0

/-- A pass that does not end the loop drops a symbol, so there are no more passes than
symbols, and one. -/
def share (scores : Mapping ℚ) (selectedUniverse : List String) : Sharing :=
  let symbols := eligible input selectedUniverse
  WhileLoop.run (fun sharing => sharing.again && sharing.kept ≠ [])
    (sharePass service input scores) (symbols.length + 1) { kept := symbols }

def aggressiveOrder (index : ℕ) (symbol : String) (plan : ℚ × ℚ × ℚ) : Order where
  symbol := symbol
  side := "buy"
  type := "limit"
  price := plan.1
  qty := plan.2.1
  status := "new"
  createdAt := input.nowTs
  updatedAt := input.nowTs
  clientOrderId := some ("s4a-" ++ symbol.toLower ++ "-" ++ toString index)
  mode := modeOf input.liveMode

def aggressiveIntent (symbol : String) (plan : ℚ × ℚ × ℚ) : Intent where
  symbol := normalizeSymbol symbol
  side := .buy
  intentType := .place
  targetNotionalTry := some plan.2.2
  rationale := "aggressive_24h_momentum"
  strategyId := "aggressive_24h_momentum"

def aggressiveAction (index : ℕ) (symbol : String) (plan : ℚ × ℚ × ℚ) : SizedAction where
  symbol := symbol
  side := .buy
  notionalTry := plan.2.2
  qty := plan.2.1
  rationale := "allocation:aggressive_24h_momentum"
  strategyId := "aggressive_24h_momentum"
  intentIndex := index

def aggressiveDecision (index : ℕ) (symbol : String) (plan : ℚ × ℚ × ℚ) :
    AllocationDecision where
  symbol := symbol
  side := .buy
  intentType := .place
  requestedNotionalTry := some plan.2.2
  allocatedNotionalTry := some plan.2.2
  allocatedQty := some plan.2.1
  status := .accepted
  reason := .ok
  strategyId := "aggressive_24h_momentum"
  intentIndex := index

def runAggressivePath (scores : Mapping ℚ) (selectedUniverse : List String) :
    CycleDecisionReport :=
  let sharing := share service input scores selectedUniverse
  let deployBudget := aggressiveDeployBudget service input
  let plans := sharing.plans.toList
  let orderRequests := plans.mapIdx fun index entry =>
    aggressiveOrder input index entry.1 entry.2
  let (selected, deferred) := selectOrdersForCycle service.settings orderRequests
  let plannedTotal := (plans.map fun entry => entry.2.2.2).sum
  { selectedUniverse := selectedUniverse
    intents := plans.map fun entry => aggressiveIntent entry.1 entry.2
    allocationActions := plans.mapIdx fun index entry => aggressiveAction index entry.1 entry.2
    allocationDecisions := plans.mapIdx fun index entry => aggressiveDecision index entry.1 entry.2
    orderRequests := selected
    deferredOrderRequests := deferred
    mappedOrdersCount := orderRequests.length
    droppedReasons := sharing.droppedReasons
    cashTry := aggressiveCash input
    tryCashTarget := service.settings.tryCashTarget
    investableTotalTry := aggressiveInvestable service input
    investableThisCycleTry := aggressiveInvestable service input
    deployBudgetTry := deployBudget
    plannedTotalTry := plannedTotal
    unusedBudgetTry := max 0 (deployBudget - plannedTotal) }

end Aggressive

section Cycle

variable (service : Service) (input : CycleInput)

/-- The caps are scaled with the multiplier. -/
def knobsOf : AllocationKnobs where
  targetTryCash := service.settings.tryCashTarget
  tryCashMax := service.settings.tryCashMax
  minOrderNotionalTry := service.settings.minOrderNotionalTry
  feeBufferBps := service.settings.allocationFeeBufferBps
  feeBufferRatio := service.settings.feeBufferRatio
  maxIntentNotionalTry :=
    service.settings.stage5MaxIntentNotionalTry * max 0 input.budgetNotionalMultiplier
  maxPositionTryPerSymbol := service.settings.maxPositionTryPerSymbol
  maxTotalNotionalTryPerCycle :=
    service.settings.notionalCapTryPerCycle * max 0 input.budgetNotionalMultiplier
  investableUsageMode := service.settings.investableUsageMode
  investableUsageFraction := service.settings.investableUsageFraction
  maxTryPerCycle := service.settings.maxTryPerCycle * max 0 input.budgetNotionalMultiplier

def allocationOf (intents : List Intent) : AllocationResult :=
  allocate intents input.balances input.positions input.markPrices (knobsOf service input)

def dropReason : Except String Order → Option String
  | .error reason => some reason
  | .ok _ => none

def runNormalPath (selectedUniverse : List String) : Except PlanError CycleDecisionReport := do
  let intents := generateIntents service input selectedUniverse
  let allocation := allocationOf service input intents
  let mapped ← allocation.actions.mapM (mapAction input)
  let orderRequests := mapped.filterMap Except.toOption
  let (selected, deferred) := selectOrdersForCycle service.settings orderRequests
  return {
    selectedUniverse := selectedUniverse
    intents := intents
    allocationActions := allocation.actions
    allocationDecisions := allocation.decisions
    orderRequests := selected
    deferredOrderRequests := deferred
    mappedOrdersCount := orderRequests.length
    droppedReasons := mapped.filterMap dropReason
    cashTry := allocation.cashTry
    tryCashTarget := allocation.tryCashTarget
    investableTotalTry := allocation.investableTotalTry
    investableThisCycleTry := allocation.investableThisCycleTry
    deployBudgetTry := allocation.deployBudgetTry
    plannedTotalTry := allocation.plannedTotalTry
    unusedBudgetTry := allocation.unusedBudgetTry }

def runCycle : Except PlanError CycleDecisionReport :=
  let selectedUniverse := selectUniverse service input
  match scoresOf input with
  | some scores => .ok (runAggressivePath service input scores selectedUniverse)
  | none => runNormalPath service input selectedUniverse

end Cycle

section Strategy

/-- A buy where there is no position, and otherwise against the deviation from the anchor. -/
def baselineMeanReversion (context : StrategyContext) : List Intent :=
  let knobs := context.knobs
  let anchor := knobs.anchorPrice.getD context.markPrice
  if anchor ≤ 0 then []
  else
    let deviationBps := (context.markPrice - anchor) / anchor * 10000
    let maxBuyNotional := min knobs.maxNotionalTry ((context.balances.get "TRY").getD 0)
    let heldQty := (context.position.map PositionSummary.qty).getD 0
    let intent (side : Side) (notional : ℚ) (rationale : String) (confidence : ℚ) : Intent :=
      { symbol := normalizeSymbol context.symbol
        side := side
        intentType := .place
        targetNotionalTry := some notional
        rationale := rationale
        strategyId := "baseline_mean_reversion_v1"
        confidence := some confidence }
    if heldQty ≤ 0 then
      if 0 < context.openOrders.buyCount then []
      else if maxBuyNotional ≤ 0 then []
      else
        let bootstrap := min knobs.bootstrapNotionalTry maxBuyNotional
        if bootstrap ≤ 0 then [] else [intent .buy bootstrap "bootstrap_position" (3 / 5)]
    else if deviationBps ≤ -knobs.meanReversionBps then
      if maxBuyNotional ≤ 0 then [] else [intent .buy maxBuyNotional "mean_reversion_buy" (7 / 10)]
    else if knobs.meanReversionBps ≤ deviationBps then
      if 0 < context.openOrders.sellCount then []
      else
        let maxSellNotional := min knobs.maxNotionalTry (heldQty * context.markPrice)
        if maxSellNotional ≤ 0 then []
        else [intent .sell maxSellNotional "mean_reversion_sell" (7 / 10)]
    else []

end Strategy

end DecisionPipeline
