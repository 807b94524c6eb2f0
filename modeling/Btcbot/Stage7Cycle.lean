import Btcbot.LedgerStore
import Btcbot.OmsService

/-!
# The stage 7 cycle

A cycle reconciles the open orders, processes its own intents, and books in the ledger
what came back filled. Orders and ledger are committed apart, and the process may stop
between.
-/
namespace Stage7Cycle

open PyData OmsService Ledger LedgerStore

structure Stage7Store where
  oms : OmsService.Store := {}
  ledgerEvents : List LedgerRow := []

/-- Where the process stops before the ledger append, a call of the order service after
so many of its intents. -/
inductive StopPoint where
  | inReconcile (intents : ℕ)
  | afterReconcile
  | inProcess (intents : ℕ)
  | beforeAppend
  deriving DecidableEq, Repr

/-- What a cycle meets. The order intents are those that the risk filter leaves. -/
structure Cycle where
  cycleId : String
  nowUtc : DateTime
  markPrices : List (String × ℚ)
  settings : Settings
  stage7FeesBps : ℚ
  reconcileLimiter : Limiter
  processLimiter : Limiter
  orderIntents : List OrderIntent
  observeOnly : Bool := false
  stop : Option StopPoint := none

section ExecutionPort

/-- The intents submitted to the port, the last of a client order id standing. -/
def consume (orderIntents : List OrderIntent) : Dict OrderIntent :=
  (orderIntents.filter fun intent => !intent.skipped).foldl
    (fun pending intent => pending.insert intent.clientOrderId intent) ∅

def pendingIntents (cycle : Cycle) : List OrderIntent :=
  ((consume cycle.orderIntents).toList.map Prod.snd).filter fun intent => !intent.skipped

/-- The simulator of a cycle fails nothing, and each call has a limiter of its own. -/
def callEnv (cycle : Cycle) (limiter : Limiter) : CallEnv where
  cycleId := cycle.cycleId
  nowUtc := cycle.nowUtc
  markPricesTry := cycle.markPrices
  transientFailures := ∅
  settings := cycle.settings
  limiter := limiter

def reconcileCall (cycle : Cycle) : OmsCall :=
  .reconcileOpenOrders (callEnv cycle cycle.reconcileLimiter)

def processCall (cycle : Cycle) : OmsCall :=
  .processIntents (callEnv cycle cycle.processLimiter) (pendingIntents cycle) []

/-- A call that stops before its transaction has stored the submit keys only. -/
def interruptCall (texts : Texts) (store : OmsService.Store) (call : OmsCall) (intents : ℕ) :
    OmsService.Store :=
  (Runs.run (processIntent texts call.env call.cancelRequests)
    ⟨store, call.env.transientFailures, 0, [], [], none⟩
    (((call.intents texts store).insertionSort IntentBefore).take intents)).store

/-- The orders of both calls, unless the process stops or a call raises. -/
def reconcile (texts : Texts) (cycle : Cycle) (store : OmsService.Store) :
    Option (List Stage7Order) × OmsService.Store :=
  match cycle.stop with
  | some (.inReconcile intents) =>
    (none, interruptCall texts store (reconcileCall cycle) intents)
  | stop =>
    match answerCall texts store (reconcileCall cycle) with
    | (.error _, store) => (none, store)
    | (.ok (reconciledOrders, _), store) =>
      match stop with
      | some .afterReconcile => (none, store)
      | some (.inProcess intents) =>
        (none, interruptCall texts store (processCall cycle) intents)
      | _ =>
        match answerCall texts store (processCall cycle) with
        | (.error _, store) => (none, store)
        | (.ok (orders, _), store) => (some (reconciledOrders ++ orders), store)

end ExecutionPort

section Booking

variable (digest : String → String)

def deterministicFillId (cycleId clientOrderId symbol side : String) : String :=
  "s7f:" ++ digest (cycleId ++ "|" ++ clientOrderId ++ "|" ++ symbol ++ "|" ++ side)

/-- The fill id of an order that a cycle books. -/
def fillIdOf (cycleId : String) (order : Stage7Order) : String :=
  deterministicFillId digest cycleId order.clientOrderId (normalizeSymbol order.symbol)
    order.side.toUpper

def fillEvent (cycle : Cycle) (order : Stage7Order) (price : ℚ) : LedgerEvent where
  eventId := "fill:" ++ fillIdOf digest cycle.cycleId order
  ts := cycle.nowUtc
  symbol := normalizeSymbol order.symbol
  type := .fill
  side := some order.side.toUpper
  qty := order.filledQty
  price := some price
  fee := none
  feeCurrency := none
  exchangeTradeId := some (fillIdOf digest cycle.cycleId order)
  clientOrderId := some order.clientOrderId

def feeEvent (cycle : Cycle) (order : Stage7Order) (price : ℚ) : LedgerEvent where
  eventId := "fee:" ++ fillIdOf digest cycle.cycleId order
  ts := cycle.nowUtc
  symbol := normalizeSymbol order.symbol
  type := .fee
  side := none
  qty := 0
  price := none
  fee := some (price * order.filledQty * (cycle.stage7FeesBps / 10000))
  feeCurrency := some "TRY"
  exchangeTradeId := some ("fee:" ++ fillIdOf digest cycle.cycleId order)
  clientOrderId := some order.clientOrderId

def materialize (cycle : Cycle) (order : Stage7Order) : List LedgerEvent :=
  if order.status ≠ .filled then []
  else
    match order.avgFillPriceTry with
    | none => []
    | some price =>
      if order.filledQty ≤ 0 then []
      else [fillEvent digest cycle order price, feeEvent digest cycle order price]

def OrderBefore (a b : Stage7Order) : Prop := a.clientOrderId ≤ b.clientOrderId

instance : DecidableRel OrderBefore := fun a b => by unfold OrderBefore; infer_instance

def materializeAll (cycle : Cycle) (orders : List Stage7Order) : List LedgerEvent :=
  (orders.insertionSort OrderBefore).flatMap (materialize digest cycle)

/-- One cycle, and whether it comes past its ledger append. -/
def runOneCycle (texts : Texts) (store : Stage7Store) (cycle : Cycle) : Stage7Store × Bool :=
  let (orders, oms) :=
    if cycle.observeOnly then (some [], store.oms) else reconcile texts cycle store.oms
  match orders with
  | none => ({ store with oms := oms }, false)
  | some orders =>
    if cycle.stop = some .beforeAppend then ({ store with oms := oms }, false)
    else
      ({ oms := oms
         ledgerEvents :=
          (appendLedgerEvents store.ledgerEvents (materializeAll digest cycle orders)).1 }, true)

def stepCycle (texts : Texts) (store : Stage7Store) (cycle : Cycle) : Stage7Store :=
  (runOneCycle digest texts store cycle).1

end Booking

end Stage7Cycle
