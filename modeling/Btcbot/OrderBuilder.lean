import Btcbot.PortfolioPolicy

/-!
# The order intents of a plan

The actions of a plan are priced off their marks, cut to what may be spent or is held, and
put on the grid of the exchange, sells first. A buy may spend what is left of the cycle's
cap, and the plan's cash.
-/
namespace OrderBuilder

open PyData KeyedTable PortfolioPolicy
open AllocationService (Mapping Side)
open Degrade (Mode)
open Money (MoneyMathPolicy roundDown)

section Rules

structure SymbolRules where
  tickSize : ℚ
  lotSize : ℚ
  minNotionalTry : ℚ
  minQty : Option ℚ := none
  maxQty : Option ℚ := none
  pricePrecision : ℤ := 8
  tickSize_nonneg : 0 ≤ tickSize := by decide
  lotSize_nonneg : 0 ≤ lotSize := by decide

/-- The rules of a symbol, where its metadata gives some, and how they were come by. -/
structure RulesResolution where
  status : String
  rules : Option SymbolRules

abbrev ExchangeRules := String → RulesResolution

def policyForSymbol (rules : SymbolRules) : MoneyMathPolicy where
  priceTick := rules.tickSize
  qtyStep := rules.lotSize
  quotePrecision := rules.pricePrecision
  feePrecision := 8
  rounding := roundDown

/-- Why an action is not built: it is skipped, or building raises. -/
inductive Halt where
  | skipped (reason : String)
  | valueError (message : String)
  deriving DecidableEq, Repr

def quantizePrice (rules : SymbolRules) (price : ℚ) : Except Halt ℚ :=
  if price ≤ 0 then .error (.valueError "price must be > 0")
  else .ok (Money.roundPrice price (policyForSymbol rules))

def quantizeQty (rules : SymbolRules) (qty : ℚ) : ℚ := Money.roundQty qty (policyForSymbol rules)

/-- What is wrong with an order under the rules, if anything is. -/
def validateNotional (rules : SymbolRules) (price qty : ℚ) : Option String :=
  if price ≤ 0 then some "price_non_positive"
  else if qty ≤ 0 then some "qty_non_positive"
  else if rules.minQty.any (qty < ·) then some "min_qty"
  else if rules.maxQty.any (· < qty) then some "max_qty"
  else if price * qty < rules.minNotionalTry then some "min_notional"
  else none

end Rules

section Actions

structure OrderIntent where
  cycleId : String
  symbol : String
  side : Side
  orderType : String := "LIMIT"
  priceTry : ℚ
  qty : ℚ
  notionalTry : ℚ
  clientOrderId : String
  reason : Reason
  skipped : Bool := false
  skipReason : Option String := none
  deriving DecidableEq, Repr

/-- What the intents of a cycle are built from. -/
structure BuildInput where
  cycleId : String
  plan : PortfolioPlan
  markPricesTry : Mapping ℚ
  finalMode : Mode
  rulesUnavailable : List (String × String) := []

/-- The client order id of a cycle, symbol, side, price, quantity and reason. -/
abbrev ClientOrderId := String → String → Side → ℚ → ℚ → Reason → String

variable (exchange : ExchangeRules) (settings : Settings) (input : BuildInput)

def offsetMultiplier (side : Side) : ℚ :=
  match side with
  | .sell => 1 + settings.stage7OrderOffsetBps / 10000
  | .buy => 1 - settings.stage7OrderOffsetBps / 10000

/-- The order builder's own one, which stops at 1; the allocation's does not. -/
def resolveFeeBufferRatio : ℚ :=
  if 0 < settings.feeBufferRatio then min settings.feeBufferRatio 1
  else min (max (settings.allocationFeeBufferBps / 10000) 0) 1

def resolveRoundingBufferTry (rules : SymbolRules) (price : ℚ) : ℚ :=
  if 0 < settings.roundingBufferTry then settings.roundingBufferTry
  else max (price * rules.lotSize) (rules.tickSize * rules.lotSize)

/-- The plan's cash; nothing limits a plan without a snapshot. -/
def planCashAvailable (plan : PortfolioPlan) : Option ℚ :=
  plan.snapshot.map PortfolioSnapshot.cashTry

/-- A limit that is not positive does not count. -/
def positive (limit : ℚ) : Option ℚ := if 0 < limit then some limit else none

def upperLimits (capRemaining : ℚ) : List ℚ :=
  (planCashAvailable input.plan).toList ++ (positive capRemaining).toList ++
    (positive settings.maxNotionalPerOrderTry).toList

/-- What a buy may spend: the full cash of the plan, whatever the buys before it took. -/
def maxSpendAfterBuffers (action : RebalanceAction) (rules : SymbolRules) (price capRemaining : ℚ) :
    ℚ :=
  let maxSpend := (upperLimits settings input capRemaining).foldl min action.targetNotionalTry
  max 0 (maxSpend * (1 - resolveFeeBufferRatio settings) -
    resolveRoundingBufferTry settings rules price)

def buyQty (action : RebalanceAction) (rules : SymbolRules) (price capRemaining : ℚ) :
    Except Halt ℚ :=
  let maxSpend := maxSpendAfterBuffers settings input action rules price capRemaining
  if maxSpend < max rules.minNotionalTry settings.minOrderNotionalTry then
    .error (.skipped "insufficient_notional_after_buffers")
  else if 0 < maxSpend / price then .ok (quantizeQty rules (maxSpend / price))
  else .ok 0

def resolveBaseAssetForInventory (symbol : String) : Option String :=
  match Stage3Service.splitSymbol symbol with
  | .ok (base, quote) => if base = "" ∨ quote = "" then none else some base.toUpper
  | .error _ => none

/-- The quantity of a sell: of what is wanted, what is held. -/
def resolveSellQty (action : RebalanceAction) (symbol : String) (rules : SymbolRules) (price : ℚ) :
    Except Halt ℚ :=
  match resolveBaseAssetForInventory symbol with
  | none => .error (.skipped "invalid_symbol_for_inventory_resolution")
  | some base =>
    let available := max 0 ((get? input.plan.balances base).getD 0)
    if available ≤ 0 then .error (.skipped "insufficient_inventory_free_qty")
    else
      let desired := if action.estQty ≤ 0 ∧ 0 < price then action.targetNotionalTry / price
        else action.estQty
      if desired ≤ 0 then .error (.skipped "insufficient_sell_qty_input")
      else .ok (quantizeQty rules (min desired available))

def actionQty (action : RebalanceAction) (symbol : String) (rules : SymbolRules)
    (price capRemaining : ℚ) : Except Halt ℚ :=
  match action.side with
  | .buy => buyQty settings input action rules price capRemaining
  | .sell => resolveSellQty input action symbol rules price

def limitPrice (action : RebalanceAction) (rules : SymbolRules) (mark : ℚ) : Except Halt ℚ := do
  let price ← quantizePrice rules (mark * offsetMultiplier settings action.side)
  if price ≤ 0 then .error (.skipped "price_rounds_to_zero") else .ok price

/-- The last checks of an order, in their order. -/
def checkOrder (side : Side) (rules : SymbolRules) (price qty : ℚ) : Except Halt Unit :=
  if qty ≤ 0 then .error (.skipped "qty_rounds_to_zero")
  else if rules.minQty.any (qty < ·) then .error (.skipped "qty_below_min_qty_after_quantize")
  else if price * qty < rules.minNotionalTry then
    .error (.skipped "notional_below_min_total_after_quantize")
  else if side = .sell ∧ price * qty < settings.minOrderNotionalTry then
    .error (.skipped "notional_below_internal_min_after_quantize")
  else match validateNotional rules price qty with
    | some reason => .error (.skipped reason)
    | none => .ok ()

/-- What is skipped before it is priced. -/
def gateAction (action : RebalanceAction) (symbol : String) : Except Halt Unit :=
  if settings.spotSellRequiresInventory ∧ action.side = .sell ∧ action.estQty ≤ 0 then
    .error (.skipped "spot_sell_requires_inventory")
  else match get? input.rulesUnavailable symbol with
    | some reason => .error (.skipped ("rules_unavailable:" ++ reason))
    | none => .ok ()

/-- The price and the quantity of an action, or why it has none. -/
def sizeAction (capRemaining : ℚ) (action : RebalanceAction) : Except Halt (ℚ × ℚ) := do
  let symbol := normalizeSymbol action.symbol
  gateAction settings input action symbol
  match input.markPricesTry.get symbol with
  | none => .error (.skipped "missing_mark_price")
  | some mark =>
    if mark ≤ 0 then .error (.skipped "missing_mark_price")
    else match (exchange symbol).rules with
      | none => .error (.skipped ("rules_unavailable:" ++ (exchange symbol).status))
      | some rules => do
        let price ← limitPrice settings action rules mark
        let qty ← actionQty settings input action symbol rules price capRemaining
        checkOrder settings action.side rules price qty
        return (price, qty)

variable (clientOrderId : ClientOrderId)

def builtIntent (action : RebalanceAction) (price qty : ℚ) : OrderIntent where
  cycleId := input.cycleId
  symbol := normalizeSymbol action.symbol
  side := action.side
  priceTry := price
  qty := qty
  notionalTry := price * qty
  clientOrderId :=
    clientOrderId input.cycleId (normalizeSymbol action.symbol) action.side price qty action.reason
  reason := action.reason

def skippedIntent (action : RebalanceAction) (reason : String) : OrderIntent where
  cycleId := input.cycleId
  symbol := normalizeSymbol action.symbol
  side := action.side
  priceTry := 0
  qty := 0
  notionalTry := 0
  clientOrderId :=
    clientOrderId input.cycleId (normalizeSymbol action.symbol) action.side 0 0 action.reason
  reason := action.reason
  skipped := true
  skipReason := some reason

def buildActionIntent (capRemaining : ℚ) (action : RebalanceAction) : Except String OrderIntent :=
  match sizeAction exchange settings input capRemaining action with
  | .ok (price, qty) => .ok (builtIntent input clientOrderId action price qty)
  | .error (.skipped reason) => .ok (skippedIntent input clientOrderId action reason)
  | .error (.valueError message) => .error message

/-- The intents built so far and what is left of the cycle's cap. -/
structure Progress where
  intents : List OrderIntent := []
  buyCycleCapRemaining : ℚ

def Progress.add (progress : Progress) (intent : OrderIntent) : Progress where
  intents := progress.intents ++ [intent]
  buyCycleCapRemaining :=
    if intent.side = .buy ∧ ¬ intent.skipped ∧ 0 < progress.buyCycleCapRemaining then
      max 0 (progress.buyCycleCapRemaining - intent.notionalTry)
    else progress.buyCycleCapRemaining

def stepAction (progress : Progress) (action : RebalanceAction) : Except String Progress := do
  let intent ← buildActionIntent exchange settings input clientOrderId
    progress.buyCycleCapRemaining action
  return progress.add intent

def actionKey (action : RebalanceAction) : ℕ ×ₗ String :=
  toLex (sideRank action.side, normalizeSymbol action.symbol)

/-- Sells before buys, each by symbol. -/
def ActsBefore (a b : RebalanceAction) : Prop := actionKey a ≤ actionKey b

instance (a b : RebalanceAction) : Decidable (ActsBefore a b) :=
  inferInstanceAs (Decidable (actionKey a ≤ actionKey b))

instance : Std.Total ActsBefore := ⟨fun a b => le_total (actionKey a) (actionKey b)⟩

instance : IsTrans RebalanceAction ActsBefore := ⟨fun _ _ _ => le_trans⟩

/-- The actions that the mode lets be built, in the order they are. -/
def orderedActions : List RebalanceAction :=
  match input.finalMode with
  | .observeOnly => []
  | .reduceRiskOnly =>
    (input.plan.actions.insertionSort ActsBefore).filter fun action => action.side ≠ .buy
  | .normal => input.plan.actions.insertionSort ActsBefore

def start : Progress := { buyCycleCapRemaining := settings.notionalCapTryPerCycle }

def buildIntents : Except String (List OrderIntent) :=
  ((orderedActions input).foldlM (stepAction exchange settings input clientOrderId)
    (start settings)).map Progress.intents

end Actions

section Cycle

inductive CycleError where
  | targets (error : TargetsError)
  | builder (message : String)
  deriving DecidableEq, Repr

/-- A stage 7 cycle's planning: the plan, and the intents built from it. -/
def planCycle (exchange : ExchangeRules) (settings : Settings) (clientOrderId : ClientOrderId)
    (cycleId : String) (rulesUnavailable : List (String × String)) (input : PlanInput) :
    Except CycleError (PortfolioPlan × List OrderIntent) := do
  let plan ← (buildPlan settings input).mapError CycleError.targets
  let intents ← (buildIntents exchange settings
    ⟨cycleId, plan, input.markPricesTry, input.finalMode, rulesUnavailable⟩
    clientOrderId).mapError CycleError.builder
  return (plan, intents)

end Cycle

end OrderBuilder
