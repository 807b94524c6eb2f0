import Btcbot.KeyedTable
import Btcbot.PyData
import Btcbot.Runs
import Mathlib.Algebra.Order.Field.Rat
import Mathlib.Tactic.Linarith

/-!
# Allocation of intents

Each intent is sized by its tightest limit, raised to the minimum notional where the
limits allow it, and taken off what is left of the budget and of the cycle's cap. A cap of
zero is no cap.
-/
namespace AllocationService

open PyData KeyedTable

section Mappings

variable {V : Type}

/-- A dict with its entries in the order its keys came. -/
structure Mapping (V : Type) where
  entries : List (String × V)
  nodup : (keys entries).Nodup

def Mapping.empty : Mapping V := ⟨[], List.nodup_nil⟩

def Mapping.get (mapping : Mapping V) (key : String) : Option V := get? mapping.entries key

/-- Its keys spelled anew, the last value of a spelling standing. -/
def Mapping.mapKeys (f : String → String) (mapping : Mapping V) : Mapping V :=
  ⟨ofEntries (mapping.entries.map fun entry => (f entry.1, entry.2)), keys_ofEntries_nodup _⟩

end Mappings

inductive Side where
  | buy
  | sell
  deriving DecidableEq, Repr

def Side.text : Side → String
  | .buy => "buy"
  | .sell => "sell"

inductive IntentType where
  | place
  | cancel
  | replace
  deriving DecidableEq, Repr

structure Intent where
  symbol : String
  side : Side
  intentType : IntentType
  targetNotionalTry : Option ℚ
  rationale : String
  strategyId : String
  confidence : Option ℚ := none
  deriving DecidableEq, Repr

structure PositionSummary where
  symbol : String
  qty : ℚ
  avgCost : ℚ
  deriving DecidableEq, Repr

inductive ReasonCode where
  | ok
  | notImplementedInPr3
  | noMarkPrice
  | cashTarget
  | minNotional
  | maxIntentCap
  | cycleNotionalCap
  | maxPositionExposureCap
  | noPosition
  | positionValueCap
  deriving DecidableEq, Repr

def ReasonCode.text : ReasonCode → String
  | .ok => "ok"
  | .notImplementedInPr3 => "not_implemented_in_pr3"
  | .noMarkPrice => "no_mark_price"
  | .cashTarget => "cash_target"
  | .minNotional => "min_notional"
  | .maxIntentCap => "max_intent_cap"
  | .cycleNotionalCap => "cycle_notional_cap"
  | .maxPositionExposureCap => "max_position_exposure_cap"
  | .noPosition => "no_position"
  | .positionValueCap => "position_value_cap"

structure SizedAction where
  symbol : String
  side : Side
  notionalTry : ℚ
  qty : ℚ
  rationale : String
  strategyId : String
  intentIndex : ℕ
  deriving DecidableEq, Repr

inductive DecisionStatus where
  | accepted
  | scaled
  | rejected
  deriving DecidableEq, Repr

structure AllocationDecision where
  symbol : String
  side : Side
  intentType : IntentType
  requestedNotionalTry : Option ℚ
  allocatedNotionalTry : Option ℚ
  allocatedQty : Option ℚ
  status : DecisionStatus
  reason : ReasonCode
  strategyId : String
  intentIndex : ℕ
  deriving DecidableEq, Repr

structure AllocationKnobs where
  targetTryCash : ℚ := 300
  tryCashMax : ℚ := 0
  minOrderNotionalTry : ℚ := 10
  feeBufferBps : ℚ := 0
  feeBufferRatio : ℚ := 0
  maxIntentNotionalTry : ℚ := 0
  maxPositionTryPerSymbol : ℚ := 0
  maxTotalNotionalTryPerCycle : ℚ := 0
  investableUsageMode : String := "use_all"
  investableUsageFraction : ℚ := 1
  maxTryPerCycle : ℚ := 0

structure AllocationResult where
  actions : List SizedAction
  decisions : List AllocationDecision
  cashTry : ℚ
  tryCashTarget : ℚ
  investableTotalTry : ℚ
  investableThisCycleTry : ℚ
  deployBudgetTry : ℚ
  plannedTotalTry : ℚ
  unusedBudgetTry : ℚ

section Budgets

def resolveInvestableBudget (investableTotalTry : ℚ) (knobs : AllocationKnobs) : ℚ :=
  let mode := (strip knobs.investableUsageMode).toLower
  let investable :=
    if mode = "fraction" then
      investableTotalTry * min (max knobs.investableUsageFraction 0) 1
    else if mode = "cap" then min investableTotalTry (max knobs.maxTryPerCycle 0)
    else investableTotalTry
  if 0 < knobs.tryCashMax then min investable (max (knobs.tryCashMax - knobs.targetTryCash) 0)
  else investable

/-- The one of the allocation and of the decision pipeline. The order builder has its own, which
stops at 1. -/
def resolveFeeBufferRatio (feeBufferRatio feeBufferBps : ℚ) : ℚ :=
  if 0 < feeBufferRatio then feeBufferRatio else max feeBufferBps 0 / 10000

/-- What a cap leaves of a request. A cap that is not positive leaves all of it. -/
def applyOptionalCap (requestedNotional capValue configuredCap : ℚ) : ℚ :=
  if configuredCap ≤ 0 then requestedNotional else max capValue 0

/-- What a position may grow by, if there is a limit. -/
def maxNewPositionNotional (currentPositionNotional maxPositionTryPerSymbol : ℚ) : Option ℚ :=
  if maxPositionTryPerSymbol ≤ 0 then none
  else some (max (maxPositionTryPerSymbol - currentPositionNotional) 0)

end Budgets

section Sizing

variable (knobs : AllocationKnobs)

/-- The limits of an intent in their precedence, none being no limit. -/
abbrev Limits := List (ReasonCode × Option ℚ)

def intentCap : Limits :=
  if 0 < knobs.maxIntentNotionalTry then [(.maxIntentCap, some knobs.maxIntentNotionalTry)] else []

/-- The price and limits of an intent, or why it has none. -/
def limitsOf (positions : Mapping PositionSummary) (prices : Mapping ℚ)
    (remainingDeployBudgetTry remainingCycleNotional : ℚ) (symbol : String) (side : Side)
    (requestedNotional : ℚ) : Except ReasonCode (ℚ × Limits) :=
  let cycleCap := applyOptionalCap requestedNotional remainingCycleNotional
    knobs.maxTotalNotionalTryPerCycle
  let heldQty := ((positions.get symbol).map PositionSummary.qty).getD 0
  match side with
  | .buy =>
    match prices.get symbol with
    | none => .error .noMarkPrice
    | some markPrice =>
      if markPrice ≤ 0 then .error .noMarkPrice
      else
        let currentPositionNotional := if 0 < heldQty then heldQty * markPrice else 0
        .ok (markPrice, [(.cashTarget, some remainingDeployBudgetTry),
          (.maxPositionExposureCap,
            maxNewPositionNotional currentPositionNotional knobs.maxPositionTryPerSymbol),
          (.cycleNotionalCap, some cycleCap)] ++ intentCap knobs)
  | .sell =>
    if heldQty ≤ 0 then .error .noPosition
    else
      match prices.get symbol with
      | none => .error .noMarkPrice
      | some markPrice =>
        if markPrice ≤ 0 then .error .noMarkPrice
        else
          .ok (markPrice, [(.positionValueCap, some (heldQty * markPrice)),
            (.cycleNotionalCap, some cycleCap)] ++ intentCap knobs)

def tightest (requestedNotional : ℚ) (limits : Limits) : ℚ :=
  limits.foldl (fun notional limit => (limit.2.map (min notional)).getD notional) requestedNotional

def firstBindingReason (requestedNotional allocatedNotional : ℚ) (limits : Limits) : ReasonCode :=
  if requestedNotional ≤ allocatedNotional then .ok
  else
    match limits.find? fun limit => limit.2 = some allocatedNotional with
    | some limit => limit.1
    | none => (limits.getLast?.map Prod.fst).getD .ok

/-- A limit is under a notional. -/
def isBelow (limit : Option ℚ) (notional : ℚ) : Bool := limit.any (· < notional)

/-- The notional of an intent and why it is that, or why it is rejected. -/
def sizeNotional (requestedNotional : ℚ) (limits : Limits) : Except ReasonCode (ℚ × ReasonCode) :=
  let allocated := tightest requestedNotional limits
  let binding := firstBindingReason requestedNotional allocated limits
  let minRequired := knobs.minOrderNotionalTry
  if allocated < minRequired then
    if limits.all fun limit => limit.1 = .maxIntentCap || !isBelow limit.2 minRequired then
      .ok (minRequired, if minRequired = requestedNotional then .ok else binding)
    else
      let blockingCap :=
        ((limits.find? fun limit => isBelow limit.2 minRequired).map Prod.fst).getD binding
      .error (if blockingCap = .cashTarget then .cashTarget else .minNotional)
  else .ok (allocated, if allocated = requestedNotional then .ok else binding)

end Sizing

section Allocation

variable (knobs : AllocationKnobs) (positions : Mapping PositionSummary) (prices : Mapping ℚ)

/-- The variables of the intent loop. -/
structure Progress where
  actions : List SizedAction := []
  decisions : List AllocationDecision := []
  remainingDeployBudgetTry : ℚ
  remainingCycleNotional : ℚ
  intentIndex : ℕ := 0

/-- The notional, price and reason of an intent, or why it is rejected. -/
def sizeIntent (progress : Progress) (intent : Intent) :
    Except ReasonCode (ℚ × ℚ × ReasonCode) :=
  if intent.intentType ≠ .place then .error .notImplementedInPr3
  else
    match intent.targetNotionalTry with
    | none => .error .minNotional
    | some requestedNotional =>
      if requestedNotional ≤ 0 then .error .minNotional
      else
        match limitsOf knobs positions prices progress.remainingDeployBudgetTry
            progress.remainingCycleNotional (canonicalSymbol intent.symbol) intent.side
            requestedNotional with
        | .error reason => .error reason
        | .ok (markPrice, limits) =>
          match sizeNotional knobs requestedNotional limits with
          | .error reason => .error reason
          | .ok (allocated, reason) => .ok (allocated, markPrice, reason)

def decisionOf (progress : Progress) (intent : Intent) (allocated qty : Option ℚ)
    (status : DecisionStatus) (reason : ReasonCode) : AllocationDecision where
  symbol := canonicalSymbol intent.symbol
  side := intent.side
  intentType := intent.intentType
  requestedNotionalTry := intent.targetNotionalTry
  allocatedNotionalTry := allocated
  allocatedQty := qty
  status := status
  reason := reason
  strategyId := intent.strategyId
  intentIndex := progress.intentIndex

def actionOf (progress : Progress) (intent : Intent) (allocated markPrice : ℚ)
    (reason : ReasonCode) : SizedAction where
  symbol := canonicalSymbol intent.symbol
  side := intent.side
  notionalTry := allocated
  qty := allocated / markPrice
  rationale := "allocation:" ++ reason.text
  strategyId := intent.strategyId
  intentIndex := progress.intentIndex

def allocateIntent (progress : Progress) (intent : Intent) : Progress :=
  match sizeIntent knobs positions prices progress intent with
  | .error reason =>
    { progress with
      decisions := progress.decisions ++ [decisionOf progress intent none none .rejected reason]
      intentIndex := progress.intentIndex + 1 }
  | .ok (allocated, markPrice, reason) =>
    { actions := progress.actions ++ [actionOf progress intent allocated markPrice reason]
      decisions := progress.decisions ++
        [decisionOf progress intent (some allocated) (some (allocated / markPrice))
          (if reason = .ok then .accepted else .scaled) reason]
      remainingDeployBudgetTry :=
        if intent.side = .buy then progress.remainingDeployBudgetTry - allocated
        else progress.remainingDeployBudgetTry
      remainingCycleNotional :=
        if 0 < knobs.maxTotalNotionalTryPerCycle then progress.remainingCycleNotional - allocated
        else progress.remainingCycleNotional
      intentIndex := progress.intentIndex + 1 }

/-- The budgets of a cycle: what is investable at all, in this cycle, and less the fees. -/
def budgetsOf (cashTry : ℚ) : ℚ × ℚ × ℚ :=
  let investableTotal := max (cashTry - knobs.targetTryCash) 0
  let investableThisCycle := resolveInvestableBudget investableTotal knobs
  let feeMultiplier := 1 + resolveFeeBufferRatio knobs.feeBufferRatio knobs.feeBufferBps
  (investableTotal, investableThisCycle,
    if 0 < feeMultiplier then investableThisCycle / feeMultiplier else investableThisCycle)

def runIntents (deployBudgetTry : ℚ) (intents : List Intent) : Progress :=
  Runs.run (allocateIntent knobs positions prices)
    { remainingDeployBudgetTry := deployBudgetTry
      remainingCycleNotional := knobs.maxTotalNotionalTryPerCycle } intents

end Allocation

def allocate (intents : List Intent) (balances : Mapping ℚ) (positions : Mapping PositionSummary)
    (markPrices : Mapping ℚ) (knobs : AllocationKnobs) : AllocationResult :=
  let cashTry := ((balances.mapKeys String.toUpper).get "TRY").getD 0
  let (investableTotal, investableThisCycle, deployBudget) := budgetsOf knobs cashTry
  let progress := runIntents knobs (positions.mapKeys canonicalSymbol)
    (markPrices.mapKeys canonicalSymbol) deployBudget intents
  let plannedTotal :=
    ((progress.actions.filter fun action => action.side = .buy).map SizedAction.notionalTry).sum
  { actions := progress.actions
    decisions := progress.decisions
    cashTry := cashTry
    tryCashTarget := knobs.targetTryCash
    investableTotalTry := investableTotal
    investableThisCycleTry := investableThisCycle
    deployBudgetTry := deployBudget
    plannedTotalTry := plannedTotal
    unusedBudgetTry := max 0 (deployBudget - plannedTotal) }

end AllocationService
