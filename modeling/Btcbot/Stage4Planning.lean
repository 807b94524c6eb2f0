import Btcbot.DecisionPipeline
import Btcbot.PlanningKernel
import Btcbot.Stage4Accounting

/-!
# Planning of a stage 4 cycle

The orders of a cycle are those of the decision pipeline or, where it has none, those of
the bootstrap. The runner asks the two itself, or has the planning kernel ask them.
-/
namespace Stage4Planning

open PyData DecisionPipeline KeyedTable
open AllocationService (Mapping PositionSummary)
open PlanningKernel (Kernel OpenOrderView OrderIntent Plan PlanningContext)
open Stage4Accounting (Position)
open Stage4Execute (quantizePrice quantizeQty)

section Bootstrap

/-- The call of the bootstrap, with the knobs it has when they are left out. -/
structure BootstrapRequest where
  cycleId : String
  minOrderNotionalTry : ℚ := 10
  bootstrapNotionalTry : ℚ := 50
  maxNotionalPerOrderTry : ℚ := 0
  symbols : List String
  markPrices : Mapping ℚ
  tryCash : ℚ
  openOrders : List Order
  liveMode : Bool
  bootstrapEnabled : Bool
  pairInfo : List PairInfo
  nowUtc : DateTime

def existingKeys (openOrders : List Order) : List (String × String) :=
  openOrders.map fun order => (normalizeSymbol order.symbol, order.side)

/-- What a symbol is bought for, or why it is not. -/
def bootstrapBudget (request : BootstrapRequest) (minRequiredNotionalTry : ℚ) :
    Except String ℚ :=
  if request.bootstrapNotionalTry ≤ 0 then .error "bootstrap_disabled"
  else if request.tryCash < minRequiredNotionalTry then .error "cash_below_min_notional"
  else
    let budget := max (min request.tryCash request.bootstrapNotionalTry) minRequiredNotionalTry
    if 0 < request.maxNotionalPerOrderTry then
      if request.maxNotionalPerOrderTry < minRequiredNotionalTry then
        .error "max_notional_below_min_notional"
      else .ok (min budget request.maxNotionalPerOrderTry)
    else .ok budget

/-- The order of a symbol, or why it has none. -/
def bootstrapOrder (request : BootstrapRequest) (symbol : String) :
    Except (Option String) Order :=
  let normalized := normalizeSymbol symbol
  match (pairInfoBySymbol (some request.pairInfo))[normalized]? with
  | none => .error (some "missing_pair_info")
  | some rulesSource =>
    let mark := (request.markPrices.get normalized).getD 0
    if mark ≤ 0 then .error (some "missing_mark_price")
    else if (normalized, "buy") ∈ existingKeys request.openOrders then
      .error (some "skipped_due_to_open_orders")
    else
      let rules := buildExchangeRules rulesSource
      let minRequired := max request.minOrderNotionalTry rules.minNotionalTry
      match bootstrapBudget request minRequired with
      | .error reason => .error (some reason)
      | .ok budget =>
        let qtyRaw := budget / mark
        if qtyRaw ≤ 0 then .error none
        else
          let price := quantizePrice mark rules
          let qty := quantizeQty qtyRaw rules
          if qty ≤ 0 then .error (some "qty_became_zero")
          else if price * qty < minRequired then .error (some "min_notional_after_quantize")
          else
            .ok
              { symbol := symbol
                side := "buy"
                type := "limit"
                price := price
                qty := qty
                status := "new"
                createdAt := request.nowUtc
                updatedAt := request.nowUtc
                clientOrderId := some ("s4-" ++ String.ofList (request.cycleId.toList.take 12) ++
                  "-" ++ normalized.toLower ++ "-buy")
                mode := modeOf request.liveMode }

def droppedFor : Except (Option String) Order → Option String
  | .error reason => reason
  | .ok _ => none

/-- The orders, and the reasons of the symbols that have none. -/
def buildIntents (request : BootstrapRequest) : List Order × List String :=
  if request.bootstrapEnabled then
    let results := (request.symbols.insertionSort (· ≤ ·)).map (bootstrapOrder request)
    (results.filterMap Except.toOption, results.filterMap droppedFor)
  else ([], [])

end Bootstrap

section Context

def mappingOf {V : Type} (entries : List (String × V)) : Mapping V :=
  ⟨ofEntries entries, keys_ofEntries_nodup entries⟩

structure PortfolioState where
  cashTry : ℚ
  openOrders : List OpenOrderView
  balancesTry : Mapping ℚ
  positionsSummary : Mapping PositionSummary

structure Stage4PlanningContext where
  cycleId : String
  nowUtc : DateTime
  markPricesTry : Mapping ℚ
  portfolio : PortfolioState
  preferredSymbols : List String
  pairInfo : List PairInfo
  liveMode : Bool
  bootstrapEnabled : Bool
  aggressiveScores : Option (Mapping ℚ)

/-- The call of the kernel planning. -/
structure PlanRequest where
  cycleId : String
  nowUtc : DateTime
  selectedSymbols : List String
  markPrices : Mapping ℚ
  tryCash : ℚ
  positions : List Position
  openOrders : List Order
  pairInfo : Option (List PairInfo)
  liveMode : Bool
  aggressiveScores : Option (Mapping ℚ)

/-- An open order as the kernel sees it. Orders it can make nothing of are passed over. -/
def viewOf (order : Order) : Option OpenOrderView :=
  let symbol := normalizeSymbol order.symbol
  let side := order.side.toUpper
  let orderType := order.type.toUpper
  let clientOrderId := strip (order.clientOrderId.getD "None")
  if symbol = "" ∨ clientOrderId = "" then none
  else if side ∉ ["BUY", "SELL"] then none
  else if orderType ∉ ["LIMIT", "MARKET"] then none
  else
    some
      { symbol := symbol
        side := side
        orderType := orderType
        price := order.price
        qty := order.qty
        clientOrderId := clientOrderId
        status := some order.status }

def viewKey (view : OpenOrderView) : String ×ₗ String ×ₗ String ×ₗ String :=
  toLex (view.symbol, toLex (view.side, toLex (view.orderType, view.clientOrderId)))

def ViewedBefore (a b : OpenOrderView) : Prop := viewKey a ≤ viewKey b

instance : DecidableRel ViewedBefore := fun a b =>
  inferInstanceAs (Decidable (viewKey a ≤ viewKey b))

def normalizeStage4OpenOrders (rawOrders : List Order) : List OpenOrderView :=
  (rawOrders.filterMap viewOf).insertionSort ViewedBefore

def summaryOf (position : Position) : PositionSummary where
  symbol := normalizeSymbol position.symbol
  qty := position.qty
  avgCost := position.avgCostTry

def buildStage4PlanningContext (settings : Settings) (request : PlanRequest) :
    Stage4PlanningContext where
  cycleId := request.cycleId
  nowUtc := ensureUtc request.nowUtc
  markPricesTry := request.markPrices.mapKeys normalizeSymbol
  portfolio :=
    { cashTry := request.tryCash
      openOrders := normalizeStage4OpenOrders request.openOrders
      balancesTry := mappingOf [("TRY", request.tryCash)]
      positionsSummary := mappingOf
        (request.positions.map fun position => (normalizeSymbol position.symbol, summaryOf position)) }
  preferredSymbols := request.selectedSymbols.map normalizeSymbol
  pairInfo := request.pairInfo.getD []
  liveMode := request.liveMode
  bootstrapEnabled := settings.stage4BootstrapIntents
  aggressiveScores := request.aggressiveScores.map fun scores => scores.mapKeys normalizeSymbol

def Stage4PlanningContext.base (context : Stage4PlanningContext) : PlanningContext where
  cycleId := context.cycleId
  nowUtc := context.nowUtc
  markPricesTry := context.markPricesTry
  cashTry := context.portfolio.cashTry
  openOrders := context.portfolio.openOrders

/-- The order of a view, in the pipeline's spelling. -/
def openOrderOf (nowUtc : DateTime) (view : OpenOrderView) : Order where
  symbol := view.symbol
  side := view.side.toLower
  type := view.orderType.toLower
  price := view.price
  qty := view.qty
  status := if view.status.getD "" = "" then "new" else view.status.getD ""
  createdAt := nowUtc
  updatedAt := nowUtc
  clientOrderId := some view.clientOrderId

def openOrdersFromContext (context : Stage4PlanningContext) : List Order :=
  context.portfolio.openOrders.map (openOrderOf context.nowUtc)

end Context

section Adapters

inductive PlanningError where
  | pipeline (error : PlanError)
  | invalidOperation
  | runtimeError (message : String)
  deriving DecidableEq, Repr

/-- What the adapters remember of the plan that they are making. -/
structure Adapters where
  lastDecisionReport : Option CycleDecisionReport := none
  lastBootstrapDropReasons : List String := []

abbrev Planning := StateT Adapters (Except PlanningError)

abbrev BootstrapBuilder := BootstrapRequest → List Order × List String

variable (service : Service) (clock : DateTime) (bootstrapBuilder : BootstrapBuilder)

/-- The cycle the adapter asks the pipeline for. It leaves out the order books and the
multiplier of the budget. -/
def adapterInput (context : Stage4PlanningContext) (planUniverse : List String) : CycleInput where
  nowTs := clock
  balances := context.portfolio.balancesTry
  positions := context.portfolio.positionsSummary
  markPrices := context.markPricesTry
  openOrders := openOrdersFromContext context
  pairInfo := some context.pairInfo
  bootstrapEnabled := context.bootstrapEnabled
  liveMode := context.liveMode
  preferredSymbols := some planUniverse
  aggressiveScores := context.aggressiveScores

/-- The notional of an intent that has none is no decimal. -/
def kernelIntentOf (item : AllocationService.Intent) : Except PlanningError PlanningKernel.Intent :=
  match item.targetNotionalTry with
  | none => .error .invalidOperation
  | some target =>
    .ok
      { symbol := normalizeSymbol item.symbol
        side := item.side.text.toUpper
        targetNotionalTry := target
        rationale := item.rationale
        strategyId := item.strategyId }

def generateIntents (context : Stage4PlanningContext) (planUniverse : List String) :
    Planning (List PlanningKernel.Intent) := do
  let report ← ((runCycle service (adapterInput clock context planUniverse)).mapError
    PlanningError.pipeline : Except PlanningError CycleDecisionReport)
  modify fun adapters => { adapters with lastDecisionReport := some report }
  (report.intents.mapM kernelIntentOf : Except PlanningError _)

def normalizeSide (raw : String) : Option String :=
  let side := (strip raw).toUpper
  if side ∈ ["BUY", "SELL"] then some side else none

def normalizeOrderType (raw : String) : Option String :=
  let orderType := (strip raw).toUpper
  if orderType ∈ ["LIMIT"] then some orderType else none

def reasonBits (side orderType : Option String) : List String :=
  (if side = none then ["invalid_side"] else []) ++
    if orderType = none then ["invalid_order_type"] else []

/-- An order whose side or type is none the exchange knows is skipped. -/
def orderIntentOf (cycleId : String) (order : Order) : OrderIntent :=
  match normalizeSide order.side, normalizeOrderType order.type with
  | some side, some orderType =>
    { cycleId := cycleId
      symbol := normalizeSymbol order.symbol
      side := side
      orderType := orderType
      priceTry := order.price
      qty := order.qty
      notionalTry := order.price * order.qty
      clientOrderId := order.clientOrderId.getD ""
      reason := order.status
      constraintsApplied := [] }
  | side, orderType =>
    { cycleId := cycleId
      symbol := normalizeSymbol order.symbol
      side := "BUY"
      orderType := "LIMIT"
      priceTry := 0
      qty := 0
      notionalTry := 0
      clientOrderId := order.clientOrderId.getD ""
      reason := order.status
      constraintsApplied :=
        [("normalization_error", String.intercalate "," (reasonBits side orderType))]
      skipped := true
      skipReason := some "invalid_normalized_fields" }

/-- The bootstrap as the adapter calls it, with none of its knobs. -/
def adapterBootstrap (context : Stage4PlanningContext) : BootstrapRequest where
  cycleId := context.cycleId
  symbols := context.preferredSymbols
  markPrices := context.markPricesTry
  tryCash := context.portfolio.cashTry
  openOrders := openOrdersFromContext context
  liveMode := context.liveMode
  bootstrapEnabled := context.bootstrapEnabled
  pairInfo := context.pairInfo
  nowUtc := context.nowUtc

def notGenerated : PlanningError := .runtimeError "stage4 decision report has not been generated"

def buildOrderIntents (context : Stage4PlanningContext) : Planning (List OrderIntent) := do
  match (← get).lastDecisionReport with
  | none => throw notGenerated
  | some report =>
    if report.orderRequests ≠ [] then
      modify fun adapters => { adapters with lastBootstrapDropReasons := [] }
      return report.orderRequests.map (orderIntentOf context.cycleId)
    else
      let (orders, dropReasons) := bootstrapBuilder (adapterBootstrap context)
      modify fun adapters => { adapters with lastBootstrapDropReasons := dropReasons }
      return orders.map (orderIntentOf context.cycleId)

def stage4Kernel : Kernel Stage4PlanningContext Planning where
  context := Stage4PlanningContext.base
  select := Stage4PlanningContext.preferredSymbols
  generateIntents := generateIntents service clock
  allocate _ intents := intents
  build context _ := buildOrderIntents bootstrapBuilder context

structure KernelPlanningResult where
  plan : Plan
  decisionReport : CycleDecisionReport
  bootstrapDropReasons : List String

def buildStage4KernelPlan (request : PlanRequest) : Except PlanningError KernelPlanningResult := do
  let context := buildStage4PlanningContext service.settings request
  let (plan, adapters) ← ((stage4Kernel service clock bootstrapBuilder).plan context).run {}
  match adapters.lastDecisionReport with
  | none => throw notGenerated
  | some report => return ⟨plan, report, adapters.lastBootstrapDropReasons⟩

def translateKernelOrderIntents (orderIntents : List OrderIntent) (nowUtc : DateTime)
    (liveMode : Bool) : List Order :=
  (orderIntents.filter fun item => !item.skipped).map fun item =>
    { symbol := item.symbol
      side := item.side.toLower
      type := item.orderType.toLower
      price := item.priceTry
      qty := item.qty
      status := "new"
      createdAt := nowUtc
      updatedAt := nowUtc
      clientOrderId := some item.clientOrderId
      mode := modeOf liveMode }

end Adapters

section Runner

/-- What a cycle knows when it comes to plan: the configured or selected symbols, the marks
as quoted for them, and the clock of the pipeline. -/
structure Cycle where
  cycleId : String
  cycleNow : DateTime
  clock : DateTime
  symbols : List String
  selectionScores : Option (Mapping ℚ)
  failedSymbols : List String
  quotes : Mapping ℚ
  fetchOrderbook : String → Option (ℚ × ℚ)
  tryCash : ℚ
  positions : List Position
  openOrders : List Order
  pairInfo : List PairInfo
  orderbooks : Mapping OrderBookSummary
  liveMode : Bool
  effectiveKillSwitch : Bool
  positionSizingMultiplier : ℚ

variable (settings : Settings)
  (universeSelector : List SymbolInfo → List (String × OrderBookSummary) → List String)
  (cycle : Cycle)

def activeSymbols : List String := cycle.symbols.map normalizeSymbol

def aggressiveScores : Option (Mapping ℚ) :=
  cycle.selectionScores.map fun scores => scores.mapKeys normalizeSymbol

def failed (symbol : String) : Bool := normalizeSymbol symbol ∈ cycle.failedSymbols

def eligibleSymbols : List String := (activeSymbols cycle).filter fun symbol => !failed cycle symbol

def quotedPrices : Mapping ℚ := cycle.quotes.mapKeys normalizeSymbol

def hasMark (markPrices : Mapping ℚ) (symbol : String) : Bool :=
  0 < (markPrices.get (normalizeSymbol symbol)).getD 0

def chooseMarkPriceFallbackSymbol (active : List String) : Option String :=
  let normalized := active.map normalizeSymbol
  if "BTCTRY" ∈ normalized then some "BTCTRY" else normalized.head?

/-- The symbol whose mark could be fetched after all, and that mark. -/
def tryRecoverSingleMarkPrice : Option (String × ℚ) :=
  match chooseMarkPriceFallbackSymbol (activeSymbols cycle) with
  | none => none
  | some fallbackSymbol =>
    match cycle.fetchOrderbook fallbackSymbol with
    | none => none
    | some (bid, ask) =>
      if bid ≤ 0 ∨ ask ≤ 0 then none
      else some (normalizeSymbol fallbackSymbol, (bid + ask) / 2)

/-- The mark prices and the symbols that have one. A live cycle without any tries to
recover one. -/
def coverage : Mapping ℚ × List String :=
  let covered := (eligibleSymbols cycle).filter (hasMark (quotedPrices cycle))
  if cycle.liveMode ∧ covered = [] then
    match tryRecoverSingleMarkPrice cycle with
    | some (symbol, mark) =>
      (mappingOf ((quotedPrices cycle).entries ++ [(symbol, mark)]), [symbol])
    | none => (quotedPrices cycle, covered)
  else (quotedPrices cycle, covered)

def budgetNotionalMultiplier : ℚ :=
  if cycle.effectiveKillSwitch then 0 else cycle.positionSizingMultiplier

def decisionPipeline : Service where
  settings := settings
  registry := baselineMeanReversion
  universeSelector := universeSelector

def kernelRequest : PlanRequest where
  cycleId := cycle.cycleId
  nowUtc := cycle.cycleNow
  selectedSymbols := (coverage cycle).2
  markPrices := (coverage cycle).1
  tryCash := cycle.tryCash
  positions := cycle.positions
  openOrders := cycle.openOrders
  pairInfo := some cycle.pairInfo
  liveMode := cycle.liveMode
  aggressiveScores := aggressiveScores cycle

/-- The orders a cycle submits that plans with the kernel. -/
def kernelIntents : Except PlanningError (List Order) := do
  let result ← buildStage4KernelPlan (decisionPipeline settings universeSelector) cycle.clock
    buildIntents (kernelRequest cycle)
  return translateKernelOrderIntents result.plan.orderIntents cycle.cycleNow cycle.liveMode

def positionsBySymbol : Mapping Position :=
  mappingOf (cycle.positions.map fun position => (normalizeSymbol position.symbol, position))

def legacyInput : CycleInput where
  nowTs := cycle.clock
  balances := mappingOf [("TRY", cycle.tryCash)]
  positions := mappingOf
    ((positionsBySymbol cycle).entries.map fun entry => (entry.1, summaryOf entry.2))
  markPrices := (coverage cycle).1
  openOrders := cycle.openOrders
  pairInfo := some cycle.pairInfo
  orderbooks := some cycle.orderbooks
  bootstrapEnabled := settings.stage4BootstrapIntents
  liveMode := cycle.liveMode
  preferredSymbols := some (coverage cycle).2
  aggressiveScores := aggressiveScores cycle
  budgetNotionalMultiplier := budgetNotionalMultiplier cycle

def legacyBootstrap : BootstrapRequest where
  cycleId := cycle.cycleId
  minOrderNotionalTry := settings.minOrderNotionalTry
  bootstrapNotionalTry := settings.stage5BootstrapNotionalTry
  maxNotionalPerOrderTry := settings.maxNotionalPerOrderTry
  symbols := eligibleSymbols cycle
  markPrices := (coverage cycle).1
  tryCash := cycle.tryCash
  openOrders := cycle.openOrders
  liveMode := cycle.liveMode
  bootstrapEnabled := settings.stage4BootstrapIntents
  pairInfo := cycle.pairInfo
  nowUtc := cycle.cycleNow

/-- The orders a cycle submits that plans without the kernel. -/
def legacyIntents : Except PlanError (List Order) := do
  let report ← runCycle (decisionPipeline settings universeSelector) (legacyInput settings cycle)
  let pipelineOrders := report.orderRequests.filter fun order => !failed cycle order.symbol
  return if pipelineOrders ≠ [] then pipelineOrders
    else (buildIntents (legacyBootstrap settings cycle)).1

end Runner

end Stage4Planning
