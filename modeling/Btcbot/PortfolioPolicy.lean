import Btcbot.AllocationService
import Btcbot.Degrade
import Btcbot.Money
import Btcbot.Stage3Execute
import Mathlib.Data.Prod.Lex

/-!
# The rebalance plan of a cycle

Equity above the cash target is split among the symbols by weight. What a symbol holds over
or under its target is sold or bought, sells first, within the turnover and the orders of a
cycle.
-/
namespace PortfolioPolicy

open PyData KeyedTable
open AllocationService (Mapping Side)
open Degrade (Mode)
open Stage3Service (dropEnding)

section Data

structure Balance where
  asset : String
  free : ℚ
  deriving DecidableEq, Repr

/-- Why the configured targets give no weights. -/
inductive TargetsError where
  | malformed (message : String)
  | notPositive (symbol : String) (weight : ℚ)
  | noWeights
  | outsideUniverse (symbols : List String)
  | sum (total : ℚ)
  deriving DecidableEq, Repr

/-- The configured targets: none for a blank text, else its entries as they parse. -/
abbrev Targets := Option (Except TargetsError (List (String × ℚ)))

structure Settings where
  stage7UniverseQuoteCcy : String := "TRY"
  portfolioTargets : Targets := none
  maxPositionNotionalTry : ℚ := 5000
  notionalCapTryPerCycle : ℚ := 1000
  minOrderNotionalTry : ℚ := 10
  tryCashTarget : ℚ := 300
  tryCashMax : ℚ := 600
  maxOrdersPerCycle : ℤ := 2
  stage7OrderOffsetBps : ℚ := 5
  spotSellRequiresInventory : Bool := true
  maxNotionalPerOrderTry : ℚ := 0
  feeBufferRatio : ℚ := 0
  allocationFeeBufferBps : ℚ := 20
  roundingBufferTry : ℚ := 0

structure PositionSnapshot where
  symbol : String
  qty : ℚ
  markPriceTry : ℚ
  notionalTry : ℚ
  deriving DecidableEq, Repr

structure PortfolioSnapshot where
  cashTry : ℚ
  positions : List PositionSnapshot
  equityTry : ℚ
  deriving DecidableEq, Repr

structure TargetAllocation where
  symbol : String
  weight : ℚ
  targetNotionalTry : ℚ
  deriving DecidableEq, Repr

/-- The reason of an action: over or under its target, and what turnover it left. -/
structure Reason where
  overweight : Bool
  current : ℚ
  target : ℚ
  turnoverCapRemaining : Option ℚ := none
  deriving DecidableEq, Repr

structure RawAction where
  symbol : String
  side : Side
  requestedNotionalTry : ℚ
  reason : Reason
  deriving DecidableEq, Repr

structure RebalanceAction where
  symbol : String
  side : Side
  targetNotionalTry : ℚ
  estQty : ℚ
  reason : Reason
  deriving DecidableEq, Repr

/-- A plan; of its summary, the snapshot and the balances it was made from. -/
structure PortfolioPlan where
  timestamp : DateTime
  symbols : List String
  cashTargetTry : ℚ
  allocations : List TargetAllocation
  actions : List RebalanceAction
  snapshot : Option PortfolioSnapshot
  balances : List (String × ℚ)
  deriving DecidableEq, Repr

structure PlanInput where
  symbols : List String
  markPricesTry : Mapping ℚ
  balances : List Balance
  nowUtc : DateTime
  finalMode : Mode := .normal

end Data

section Symbols

/-- The text before and after the first of a character. -/
def splitAtChar (separator : Char) (text : String) : Option (String × String) :=
  let (left, right) := text.toList.span (· ≠ separator)
  if right = [] then none else some (String.ofList left, String.ofList (right.drop 1))

def splitSymbol (symbol quoteCcy : String) : String × String :=
  let cleaned := String.ofList ((strip symbol).toUpper.toList.filter (· ≠ ' '))
  let quote := (strip quoteCcy).toUpper
  match (splitAtChar '_' cleaned).orElse fun _ => splitAtChar '-' cleaned with
  | some (left, right) => if left ≠ "" ∧ right ≠ "" then (left, right) else (cleaned, "")
  | none =>
    let canonical := normalizeSymbol cleaned
    match if quote = "" then none else dropEnding quote canonical with
    | some base => (base, quote)
    | none => (canonical, "")

end Symbols

section Weights

/-- The entries in the order they come, the first of a symbol counting. -/
def readWeights : List (String × ℚ) → List (String × ℚ) → Except TargetsError (List (String × ℚ))
  | weights, [] => .ok weights
  | weights, (raw, weight) :: entries =>
    let symbol := canonicalSymbol raw
    if symbol = "" ∨ symbol ∈ keys weights then readWeights weights entries
    else if weight ≤ 0 then .error (.notPositive symbol weight)
    else readWeights (weights ++ [(symbol, weight)]) entries

def totalWeight (weights : List (String × ℚ)) : ℚ := (weights.map Prod.snd).sum

def sortWeights (weights : List (String × ℚ)) : List (String × ℚ) :=
  weights.insertionSort fun a b => a.1 ≤ b.1

/-- Weights that nearly sum to one are scaled to do so. -/
def scaleWeights (weights : List (String × ℚ)) : Except TargetsError (List (String × ℚ)) :=
  let total := totalWeight weights
  if |1 - total| ≤ 1 / 10 ^ 6 then .ok (sortWeights weights)
  else if 95 / 100 < total ∧ total < 105 / 100 then
    .ok (sortWeights (weights.map fun entry => (entry.1, entry.2 / total)))
  else .error (.sum total)

def getPortfolioTargetWeights (portfolioTargets : Targets) (symbols : List String) :
    Except TargetsError (List (String × ℚ)) :=
  let normalizedUniverse := ((symbols.filter fun symbol => strip symbol ≠ "").map
    canonicalSymbol).dedup.insertionSort (· ≤ ·)
  if normalizedUniverse = [] then .ok []
  else match portfolioTargets with
    | none => .ok (normalizedUniverse.map fun symbol => (symbol, 1 / normalizedUniverse.length))
    | some parsed => do
      let weights ← readWeights [] (← parsed)
      if weights = [] then .error .noWeights
      else
        let unknown := ((keys weights).filter (· ∉ normalizedUniverse)).insertionSort (· ≤ ·)
        if unknown ≠ [] then .error (.outsideUniverse unknown) else scaleWeights weights

end Weights

section Plan

variable (settings : Settings)

def priceMap (markPricesTry : Mapping ℚ) : List (String × ℚ) :=
  ofEntries ((markPricesTry.entries.filter fun entry => 0 < entry.2).map fun entry =>
    (normalizeSymbol entry.1, entry.2))

def filteredUniverse (input : PlanInput) : List String :=
  ((input.symbols.map normalizeSymbol).dedup.insertionSort (· ≤ ·)).filter fun symbol =>
    symbol ∈ keys (priceMap input.markPricesTry)

def quoteCcy : String := settings.stage7UniverseQuoteCcy.toUpper

def balanceByAsset (balances : List Balance) : List (String × ℚ) :=
  ofEntries (balances.map fun balance => (balance.asset.toUpper, balance.free))

def positionOf (prices : List (String × ℚ)) (balances : List Balance) (quote symbol : String) :
    PositionSnapshot :=
  let (base, parsedQuote) := splitSymbol symbol quote
  let qty := if parsedQuote ≠ quote then 0 else (get? (balanceByAsset balances) base).getD 0
  let mark := (get? prices symbol).getD 0
  { symbol := symbol, qty := qty, markPriceTry := mark, notionalTry := qty * mark }

def buildSnapshot (input : PlanInput) : PortfolioSnapshot :=
  let positions := (filteredUniverse input).map
    (positionOf (priceMap input.markPricesTry) input.balances (quoteCcy settings))
  let cash := (get? (balanceByAsset input.balances) (quoteCcy settings)).getD 0
  { cashTry := cash
    positions := positions.insertionSort fun a b => a.symbol ≤ b.symbol
    equityTry := cash + (positions.map PositionSnapshot.notionalTry).sum }

def cashTargetTry : ℚ := min settings.tryCashTarget settings.tryCashMax

def investableEquity (snapshot : PortfolioSnapshot) : ℚ :=
  max 0 (snapshot.equityTry - cashTargetTry settings)

def allocationOf (investable : ℚ) (weights : List (String × ℚ)) (symbol : String) :
    TargetAllocation :=
  let target := min (investable * (get? weights symbol).getD 0) settings.maxPositionNotionalTry
  { symbol := symbol, weight := target / investable, targetNotionalTry := target }

def buildAllocations (symbols : List String) (investable : ℚ) (weights : List (String × ℚ)) :
    List TargetAllocation :=
  if symbols = [] ∨ investable ≤ 0 then []
  else (symbols.insertionSort (· ≤ ·)).map (allocationOf settings investable weights)

def currentNotional (positions : List PositionSnapshot) (symbol : String) : ℚ :=
  ((positions.find? fun position => position.symbol = symbol).map
    PositionSnapshot.notionalTry).getD 0

def rawActionOf (positions : List PositionSnapshot) (allocation : TargetAllocation) :
    Option RawAction :=
  let current := currentNotional positions allocation.symbol
  let delta := allocation.targetNotionalTry - current
  if delta = 0 then none
  else some
    { symbol := allocation.symbol
      side := if delta < 0 then .sell else .buy
      requestedNotionalTry := |delta|
      reason :=
        { overweight := decide (delta < 0)
          current := current
          target := allocation.targetNotionalTry } }

def buildRawActions (allocations : List TargetAllocation) (positions : List PositionSnapshot) :
    List RawAction :=
  let actions := allocations.filterMap (rawActionOf positions)
  (actions.filter fun action => action.side = .sell).insertionSort (fun a b => a.symbol ≤ b.symbol)
    ++ (actions.filter fun action => action.side = .buy).insertionSort
      fun a b => a.symbol ≤ b.symbol

def sideRank : Side → ℕ
  | .sell => 0
  | .buy => 1

/-- Sells first, the larger ones first. -/
def LargerBefore (side : Side) (notional : ℚ) (symbol : String) (side' : Side) (notional' : ℚ)
    (symbol' : String) : Prop :=
  toLex (sideRank side, toLex (-notional, symbol)) ≤
    toLex (sideRank side', toLex (-notional', symbol'))

instance (side side' : Side) (notional notional' : ℚ) (symbol symbol' : String) :
    Decidable (LargerBefore side notional symbol side' notional' symbol') :=
  inferInstanceAs (Decidable (_ ≤ _))

/-- The turnover left and the actions taken so far. -/
structure Turnover where
  remaining : ℚ
  constrained : List RebalanceAction := []

def qtyPrecision : ℚ := 1 / 10 ^ 8

def takeAction (prices : List (String × ℚ)) (turnover : Turnover) (action : RawAction) :
    Turnover :=
  if turnover.remaining ≤ 0 then turnover
  else match get? prices action.symbol with
    | none => turnover
    | some price =>
      if price ≤ 0 then turnover
      else
        let applied := min action.requestedNotionalTry turnover.remaining
        if applied < settings.minOrderNotionalTry then turnover
        else
          let remaining := turnover.remaining - applied
          let qty := Grid.snap Grid.trunc qtyPrecision (applied / price)
          if qty ≤ 0 then { turnover with remaining := remaining }
          else
            { remaining := remaining
              constrained := turnover.constrained ++
                [{ symbol := action.symbol
                   side := action.side
                   targetNotionalTry := applied
                   estQty := qty
                   reason := { action.reason with turnoverCapRemaining := some remaining } }] }

def applyConstraints (rawActions : List RawAction) (prices : List (String × ℚ)) :
    List RebalanceAction :=
  let filtered := rawActions.filter fun action =>
    settings.minOrderNotionalTry ≤ action.requestedNotionalTry
  let sorted := filtered.insertionSort fun a b =>
    LargerBefore a.side a.requestedNotionalTry a.symbol b.side b.requestedNotionalTry b.symbol
  let constrained := (sorted.foldl (takeAction settings prices)
    ⟨settings.notionalCapTryPerCycle, []⟩).constrained
  let kept := (constrained.insertionSort fun a b =>
    LargerBefore a.side |a.targetNotionalTry| a.symbol b.side |b.targetNotionalTry| b.symbol).take
      settings.maxOrdersPerCycle.toNat
  (kept.filter fun action => action.side = .sell).insertionSort (fun a b => a.symbol ≤ b.symbol)
    ++ (kept.filter fun action => action.side = .buy).insertionSort fun a b => a.symbol ≤ b.symbol

def modeActions (finalMode : Mode) (actions : List RebalanceAction) : List RebalanceAction :=
  match finalMode with
  | .normal => actions
  | .reduceRiskOnly => actions.filter fun action => action.side = .sell
  | .observeOnly => []

def neededAssets (symbols : List String) (actions : List RebalanceAction) : List String :=
  quoteCcy settings :: (symbols ++ actions.map RebalanceAction.symbol).filterMap fun symbol =>
    let (base, parsedQuote) := splitSymbol symbol (quoteCcy settings)
    if base ≠ "" ∧ parsedQuote = quoteCcy settings then some base else none

def filteredBalanceSnapshot (balances : List Balance) (symbols : List String)
    (actions : List RebalanceAction) : List (String × ℚ) :=
  ofEntries ((balances.map fun balance => (balance.asset.toUpper, balance.free)).filter
    fun entry => entry.1 ∈ neededAssets settings symbols actions)

def buildPlan (input : PlanInput) : Except TargetsError PortfolioPlan := do
  let symbols := filteredUniverse input
  let prices := priceMap input.markPricesTry
  let snapshot := buildSnapshot settings input
  let weights ← getPortfolioTargetWeights settings.portfolioTargets symbols
  let allocations := buildAllocations settings symbols (investableEquity settings snapshot) weights
  let actions := modeActions input.finalMode
    (applyConstraints settings (buildRawActions allocations snapshot.positions) prices)
  return {
    timestamp := input.nowUtc
    symbols := symbols
    cashTargetTry := cashTargetTry settings
    allocations := allocations
    actions := actions
    snapshot := some snapshot
    balances := filteredBalanceSnapshot settings input.balances symbols actions }

end Plan

end PortfolioPolicy
