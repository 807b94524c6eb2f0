import Btcbot.ExecutionWrapper
import Btcbot.Stage3Intent
import Mathlib.Data.List.Sort

/-!
# The stage 3 execution service: state, environment, lifecycle refresh

The state is the store together with the attributes of the service; `events` and
`answers` are logs that no code reads. The environment answers the calls to the outside, one
tick a call, and may stop the process at any of them.
-/
namespace Stage3Service

open PyData ExchangeErrors OrderSizing Stage3Store Stage3Intent Idempotency

section State

/-- The attributes of the service after its constructor, those it later changes apart. -/
structure Config where
  dryRun : Bool := false
  ttlSeconds : ℤ := 120
  killSwitch : Bool := false
  safeMode : Bool := false
  liveTradingEnabled : Bool := true
  liveTradingAck : Bool := true
  processRole : String := "LIVE"
  unknownReprobeInitialSeconds : ℤ := 30
  unknownReprobeMaxSeconds : ℤ := 900
  unknownReprobeEscalationAttempts : ℤ := 8
  unknownReprobeForceObserveOnly : Bool := false
  unknownReprobeForceKillSwitch : Bool := false
  unknownReprobeMaxLookbackSeconds : ℤ := 86400
  pendingRecoveryMaxAttempts : ℤ := 3
  pendingRecoveryBackoffSeconds : ℤ := 30
  pendingGraceSeconds : ℤ := 60
  submitRetryMaxAttempts : ℕ := 2
  cancelRetryMaxAttempts : ℕ := 2
  spotSellRequiresInventory : Bool := true
  executionQuoteAssetOverride : Option String := none
  estimatedFeeBps : ℚ := 15
  balanceSafetyBufferRatio : ℚ := 0
  sellFeeInBaseBps : ℚ := 0
  allowMinNotionalUpgrade : Bool := false
  fallbackMinNotionalTry : ℚ := 10
  marketData : Bool := false
  text : TextOps

structure UnknownOrderRecord where
  orderId : String
  reason : String
  tsMs : ℤ
  deriving DecidableEq, Repr

structure PlaceRequest where
  symbol : String
  side : OrderSide
  price : ℚ
  quantity : ℚ
  clientOrderId : String
  deriving DecidableEq, Repr

/-- What a place call does: whether the exchange creates the order, and how the call ends. -/
structure PlaceAnswer where
  creates : Bool
  result : Except Exc Ack

/-- A place call, as it is sent, under the key of its intent. -/
structure PlaceAttempt where
  key : String
  clientOrderId : String
  attempt : ℕ
  maxAttempts : ℕ
  unknownOrders : List String
  registryUnknown : List String
  answer : PlaceAnswer

inductive Event where
  /-- A call of the service begins. -/
  | called
  | refreshStarted
  | readFailed (symbol : String)
  | refreshFinished
  /-- The order ids the registry is left with. -/
  | registry (orderIds : List String)
  | place (attempt : PlaceAttempt)
  /-- Reconciliation matched the order to the client order id. -/
  | matched (clientOrderId orderId : String)
  /-- A reservation met the action row of the dedupe key. -/
  | adopted (dedupeKey : String) (orderId : Option String)
  /-- A stale pending row was matched to the order. -/
  | recovered (key clientOrderId orderId : String)

/-- How an exchange list asked for by a refresh was answered. -/
inductive ExchangeAnswer where
  | openOrders (symbol : String) (snapshots : List OrderSnapshot)
  | openOrdersFailed (symbol : String)
  | allOrders (symbol : String) (snapshots : List OrderSnapshot)
  deriving DecidableEq, Repr

structure RefreshSummary where
  symbols : List String
  skipNonEssential : Bool
  localOpenUnknown : ℕ := 0
  matchedOnExchange : ℕ := 0
  importedExternalOpen : ℕ := 0
  markedMissing : ℕ := 0
  closed : ℕ := 0
  refreshSkippedDueToThrottleCount : ℕ := 0
  openOrdersCallsCount : ℕ := 0
  allOrdersCallsCount : ℕ := 0
  backoff429Count : ℕ := 0
  skippedDueToBackoffCooldown : Bool := false
  backoffRemainingSeconds : Option ℚ := none
  errorCode : String := ""
  backoffEndpoints : List String := []
  deriving DecidableEq, Repr

structure ExecuteSummary where
  ordersSubmitted : ℕ := 0
  ordersSimulated : ℕ := 0
  ordersFailedExchange : ℕ := 0
  rejectedIntents : ℕ := 0
  intentsRejectedPrecheck : ℕ := 0
  attemptedExchangeCalls : ℕ := 0
  wouldSubmitOrders : ℕ := 0
  wouldSubmitNotionalTry : ℚ := 0
  rejectedMinNotional : ℕ := 0
  wouldRejectMinNotional : ℕ := 0
  deriving DecidableEq, Repr

structure Sys where
  orders : List StoredOrder := []
  idempotency : IdempotencyTable := IdempotencyTable.empty
  actions : List ActionRow := []
  registry : Dict UnknownOrderRecord := ∅
  safeMode : Bool := false
  killSwitch : Bool := false
  lastLifecycleRefreshAt : Dict ℚ := ∅
  lifecycleBackoffUntil : ℚ := 0
  lastLifecycleRefreshSummary : Option RefreshSummary := none
  lastExecuteSummary : Option ExecuteSummary := none
  cycleBalanceCache : List (String × Dict ℚ) := []
  lifecycleRefreshedOrder : List String := []
  tick : ℕ := 0
  events : List Event := []
  answers : List ExchangeAnswer := []

structure HealthSnapshot where
  degraded : Bool
  breakerOpen : Bool
  deriving DecidableEq, Repr

structure Env where
  /-- The wall clock, in microseconds. -/
  now : ℕ → ℤ
  monotonic : ℕ → ℚ
  crash : ℕ → Bool
  getOpenOrders : ℕ → String → Except Exc (List OpenOrderItem)
  getAllOrders : ℕ → String → ℤ → ℤ → Except Exc (List OrderSnapshot)
  listOpenOrders : ℕ → Except Exc (List Order)
  placeOrder : ℕ → PlaceRequest → PlaceAnswer
  cancelOrder : ℕ → String → Except Exc Bool
  getBalances : ℕ → Except Exc (List (String × ℚ))
  healthSnapshot : ℕ → Except Exc HealthSnapshot
  storedKillSwitch : ℕ → String → Bool
  tradingBlockedByPolicy : ℕ → Bool
  getSymbolRules : ℕ → String → Except Exc SymbolRules

end State

abbrev ExecM := EStateM Exc Sys

section Primitives

variable (env : Env)

/-- One call to the outside or one store write: the process may stop here. -/
def point : ExecM ℕ := do
  let s ← get
  set { s with tick := s.tick + 1 }
  if env.crash s.tick then throw .crash
  pure s.tick

def ask {α : Type} (f : ℕ → α) : ExecM α := do
  let tick ← point env
  pure (f tick)

def liftExcept {α : Type} : Except Exc α → ExecM α
  | .ok a => pure a
  | .error exc => throw exc

def call {α : Type} (f : ℕ → Except Exc α) : ExecM α := do
  let answer ← ask env f
  liftExcept answer

def now : ExecM ℤ := ask env env.now

/-- `try: ... except Exception`, with the exception as a value. -/
def attempt {α : Type} (m : ExecM α) : ExecM (Except Exc α) :=
  tryExcept (do let a ← m; pure (.ok a)) fun exc => pure (.error exc)

def emit (event : Event) : ExecM Unit := modify fun s => { s with events := s.events ++ [event] }

def record (answer : ExchangeAnswer) : ExecM Unit :=
  modify fun s => { s with answers := s.answers ++ [answer] }

def writeOrders (f : ℤ → List StoredOrder → List StoredOrder) : ExecM Unit := do
  let t ← now env
  modify fun s => { s with orders := f t s.orders }

def storeOrder (args : SaveOrderArgs) : ExecM Unit := do
  let t ← now env
  let s ← get
  let orders ← liftExcept (saveOrder t s.orders args)
  modify fun s => { s with orders := orders }

def storeOrderStatus (args : StatusArgs) : ExecM Unit :=
  writeOrders env fun t orders => updateOrderStatus t orders args

def reserveKey (k : RowKey) (args : ReserveArgs) : ExecM ReservationResult := do
  let t ← now env
  let s ← get
  match reserveIdempotencyKey (toEpoch t) s.idempotency k args with
  | .error conflict => throw (.idempotencyConflict conflict)
  | .ok (result, table) => do
    modify fun s => { s with idempotency := table }
    pure result

def writeIdempotency (f : ℤ → IdempotencyTable → IdempotencyTable) : ExecM Unit := do
  let t ← now env
  modify fun s => { s with idempotency := f (toEpoch t) s.idempotency }

def finalizeKey (k : RowKey) (args : FinalizeArgs) : ExecM Unit :=
  writeIdempotency env fun _ table => finalizeIdempotencyKey table k args

def updateRecovery (k : RowKey) (args : RecoveryArgs) : ExecM Unit :=
  writeIdempotency env fun _ table => updateIdempotencyRecovery table k args

def pruneKeys : ExecM Unit :=
  writeIdempotency env fun t table => pruneExpiredIdempotencyKeys t table none

def addAction (cycleId actionType payloadHash dedupeKey : String) : ExecM (Option ℕ) := do
  let t ← now env
  let s ← get
  let (id, actions) := recordAction t s.actions cycleId actionType payloadHash dedupeKey
  modify fun s => { s with actions := actions }
  pure id

def writeActions (f : List ActionRow → List ActionRow) : ExecM Unit := do
  let _ ← point env
  modify fun s => { s with actions := f s.actions }

def attachMetadata (actionId : ℕ) (clientOrderId orderId : Option String) : ExecM Unit :=
  writeActions env fun actions => attachActionMetadata actions actionId clientOrderId orderId

def clearDedupeKey (actionId : ℕ) : ExecM Unit :=
  writeActions env fun actions => clearActionDedupeKey actions actionId

end Primitives

section Registry

def syncSnapshot (registry : Dict UnknownOrderRecord) (records : List UnknownOrderRecord)
    (allowClear : Bool) : Dict UnknownOrderRecord :=
  records.foldl (fun registry record => registry.insert record.orderId record)
    (if allowClear then ∅ else registry)

def unknownRecord (order : StoredOrder) : UnknownOrderRecord where
  orderId := order.orderId
  reason := match order.exchangeStatusRaw with
    | some raw => if raw = "" then "unknown" else raw
    | none => "unknown"
  tsMs := match order.lastSeenAt with
    | some t => if t = 0 then toMs order.updatedAt else t
    | none => toMs order.updatedAt

def setRegistry (f : Sys → Dict UnknownOrderRecord) : ExecM Unit := modify fun s =>
  { s with registry := f s, events := s.events ++ [.registry (f s).keys] }

def syncUnknownRegistryFromStore (allowClear : Bool) : ExecM Unit := setRegistry fun s =>
  syncSnapshot s.registry ((listUnknownOrders s.orders).map unknownRecord) allowClear

def markUnknown (orderId reason : String) (ts : ℤ) : ExecM Unit := setRegistry fun s =>
  s.registry.insert orderId ⟨orderId, reason, ts⟩

end Registry

section CycleMemory

def maxCycleBalanceSnapshots : ℕ := 10

def maxCycleLifecycleMarkers : ℕ := 10

/-- The newest entries, oldest first. -/
def keepNewest {α : Type} (n : ℕ) (l : List α) : List α := l.drop (l.length - n)

def markLifecycleRefreshed (cycleId : String) : ExecM Unit :=
  if cycleId = "" then pure () else modify fun s => { s with
    lifecycleRefreshedOrder := keepNewest maxCycleLifecycleMarkers
      (s.lifecycleRefreshedOrder.filter (· ≠ cycleId) ++ [cycleId]) }

def wasLifecycleRefreshed (s : Sys) (cycleId : Option String) : Bool :=
  cycleId.any fun cycleId => cycleId ≠ "" && s.lifecycleRefreshedOrder.contains cycleId

def rememberCycleBalanceSnapshot (cycleId : String) (balances : Dict ℚ) : ExecM Unit :=
  modify fun s => { s with
    cycleBalanceCache := keepNewest maxCycleBalanceSnapshots
      (s.cycleBalanceCache.filter (fun entry => entry.1 ≠ cycleId) ++ [(cycleId, balances)]) }

end CycleMemory

section Lifecycle

variable (env : Env) (config : Config)

def lifecycleRefreshMinIntervalSeconds : ℚ := 5

def lifecycleBackoffCooldownSeconds : ℚ := 15

/-- What one refresh works with: the orders it read at its start and its two clock readings. -/
structure RefreshContext where
  localOrders : List StoredOrder
  nowMs : ℤ
  nowMono : ℚ
  skipNonEssential : Bool

structure RefreshAcc where
  summary : RefreshSummary
  reconcileFailed : Bool := false
  recent : Option (List OrderSnapshot) := none

/-- A read of the exchange failed: the refresh is no longer clean. -/
def RefreshAcc.failed (acc : RefreshAcc) (endpoint : String) (exc : Exc) : RefreshAcc :=
  { acc with
    reconcileFailed := true
    summary := if isExchange429Error exc then
        { acc.summary with
          backoff429Count := acc.summary.backoff429Count + 1
          backoffEndpoints := if endpoint ∈ acc.summary.backoffEndpoints then
            acc.summary.backoffEndpoints else acc.summary.backoffEndpoints ++ [endpoint] }
      else acc.summary }

def isUnknownProbeDue (nextProbeAt : Option ℤ) (nowMs : ℤ) : Bool :=
  nextProbeAt.all fun t => decide (t ≤ nowMs)

def computeAllOrdersStartMs (nowMs : ℤ) (dueUnknownOrders : List StoredOrder) : ℤ :=
  let defaultStart := nowMs - 60 * 60 * 1000
  let maxLookbackStart := nowMs - config.unknownReprobeMaxLookbackSeconds * 1000
  let candidates := (dueUnknownOrders.filterMap StoredOrder.unknownFirstSeenAt).filter
    fun firstSeen => decide (0 < firstSeen ∧ firstSeen ≤ nowMs)
  let startMs := match candidates.min? with
    | some first => min defaultStart (first - 60 * 1000)
    | none => defaultStart
  max maxLookbackStart startMs

def markUnknownUnresolved (row : StoredOrder) (nowMs : ℤ) : ExecM Unit := do
  let safeAttempts := max 0 (min row.unknownProbeAttempts 60)
  let nextAttempt := safeAttempts + 1
  let backoffSeconds := min config.unknownReprobeMaxSeconds
    (config.unknownReprobeInitialSeconds * 2 ^ safeAttempts.toNat)
  let shouldEscalate := decide (config.unknownReprobeEscalationAttempts ≤ nextAttempt) &&
    row.unknownEscalatedAt.isNone
  writeOrders env fun _ orders =>
    markUnknownProbeResult orders ⟨row.orderId, nowMs, nowMs + backoffSeconds * 1000, shouldEscalate⟩
  modify fun s => { s with
    safeMode := s.safeMode || (shouldEscalate && config.unknownReprobeForceObserveOnly)
    killSwitch := s.killSwitch || (shouldEscalate && config.unknownReprobeForceKillSwitch) }

def orText (first second : Option String) : Option String :=
  match first with
  | some text => if text = "" then second else some text
  | none => second

/-- The side of a snapshot without one is that of the stored order. -/
def saveReconciledSnapshot (snapshot : OrderSnapshot) (exchangeStatusRaw : Option String) :
    ExecM Unit := do
  let s ← get
  match snapshot.side.or ((getOrder s.orders snapshot.orderId).map StoredOrder.side) with
  | none => pure ()
  | some side => do
    let createdAt ← now env
    let updatedAt ← now env
    storeOrder env {
      order := {
        orderId := snapshot.orderId
        clientOrderId := snapshot.clientOrderId
        symbol := snapshot.pairSymbol
        side := side
        price := snapshot.price
        quantity := snapshot.quantity
        status := mapExchangeStatus snapshot.status
        createdAt := ⟨createdAt, true⟩
        updatedAt := ⟨updatedAt, true⟩ }
      reconciled := true
      exchangeStatusRaw := orText exchangeStatusRaw snapshot.statusRaw }

/-- The status a snapshot shows, written to the order named. -/
def storeSnapshotStatus (orderId : String) (snapshot : OrderSnapshot)
    (exchangeStatusRaw : Option String) : ExecM Unit :=
  storeOrderStatus env {
    orderId := orderId
    status := mapExchangeStatus snapshot.status
    exchangeStatusRaw := exchangeStatusRaw
    reconciled := some true
    lastSeenAt := some snapshot.seenAt }

def saveOpenSnapshot (acc : RefreshAcc) (snapshot : OrderSnapshot) : ExecM RefreshAcc := do
  let s ← get
  let mapped := mapExchangeStatus snapshot.status
  let external := (getOrder s.orders snapshot.orderId).isNone &&
    (mapped == .new || mapped == .open || mapped == .partial_)
  let exchangeStatusRaw := if external then some "external_open:exchange_reconcile"
    else snapshot.statusRaw
  saveReconciledSnapshot env snapshot exchangeStatusRaw
  storeSnapshotStatus env snapshot.orderId snapshot (orText exchangeStatusRaw snapshot.statusRaw)
  pure { acc with summary := { acc.summary with
    importedExternalOpen := acc.summary.importedExternalOpen + if external then 1 else 0 } }

def isUnknownPlaceholder (row : StoredOrder) (orderId : String) : Bool :=
  startsWithText "unknown:" row.orderId && row.orderId != orderId

/-- The local order was not found among the recent ones. -/
def closeMissing (ctx : RefreshContext) (acc : RefreshAcc) (row : StoredOrder) :
    ExecM RefreshAcc := do
  let t ← now env
  let ageSeconds := (t - row.updatedAt).tdiv 1000000
  let reject (raw : String) : ExecM Unit := storeOrderStatus env {
    orderId := row.orderId
    status := .rejected
    exchangeStatusRaw := some raw
    reconciled := some true
    lastSeenAt := some ctx.nowMs }
  match row.status with
  | .new =>
    if config.pendingGraceSeconds < ageSeconds then do
      reject "missing_on_exchange_after_grace"
      pure { acc with summary := { acc.summary with closed := acc.summary.closed + 1 } }
    else pure acc
  | .open | .partial_ => do
    reject "missing_on_exchange_reconcile"
    pure { acc with summary := { acc.summary with
      markedMissing := acc.summary.markedMissing + 1
      closed := acc.summary.closed + 1 } }
  | .unknown => do
    markUnknownUnresolved env config row ctx.nowMs
    pure acc
  | _ => pure acc

/-- The local order was found among the recent ones. -/
def settleMatched (acc : RefreshAcc) (row : StoredOrder) (matched : OrderSnapshot) :
    ExecM RefreshAcc := do
  let mapped := mapExchangeStatus matched.status
  let isClosed := mapped == .canceled || mapped == .filled || mapped == .rejected
  saveReconciledSnapshot env matched none
  storeSnapshotStatus env matched.orderId matched matched.statusRaw
  if isUnknownPlaceholder row matched.orderId && row.clientOrderId.any (· ≠ "") then
    storeSnapshotStatus env row.orderId matched matched.statusRaw
  pure { acc with summary := { acc.summary with
    matchedOnExchange := acc.summary.matchedOnExchange + 1
    closed := acc.summary.closed + if isClosed then 1 else 0 } }

/-- The recent orders of the symbol, read at most once with success. -/
def loadRecent (ctx : RefreshContext) (symbol : String) (dueUnknownOrders : List StoredOrder)
    (acc : RefreshAcc) : ExecM RefreshAcc := do
  if acc.recent.isSome || ctx.skipNonEssential then pure acc
  else do
    let acc := { acc with summary := { acc.summary with
      allOrdersCallsCount := acc.summary.allOrdersCallsCount + 1 } }
    let startMs := computeAllOrdersStartMs config ctx.nowMs dueUnknownOrders
    match ← attempt (call env fun tick => env.getAllOrders tick symbol startMs ctx.nowMs) with
    | .error exc => do
      emit (.readFailed symbol)
      pure (acc.failed "all_orders" exc)
    | .ok recent => do
      record (.allOrders symbol recent)
      pure { acc with recent := some recent }

def reconcileLocal (ctx : RefreshContext) (symbol : String) (openSnapshots : List OrderSnapshot)
    (dueUnknownOrders : List StoredOrder) (acc : RefreshAcc) (row : StoredOrder) :
    ExecM RefreshAcc := do
  let counted := { acc with summary := { acc.summary with
    matchedOnExchange := acc.summary.matchedOnExchange + 1 } }
  if openSnapshots.any fun snapshot => snapshot.orderId == row.orderId then pure counted
  else match row.clientOrderId.bind (matchOrderByClientId openSnapshots) with
  | some openMatch => do
    if isUnknownPlaceholder row openMatch.orderId then
      storeSnapshotStatus env row.orderId openMatch openMatch.statusRaw
    pure counted
  | none =>
    if row.status = .unknown ∧ isUnknownProbeDue row.unknownNextProbeAt ctx.nowMs = false then
      pure acc
    else do
      let acc ← loadRecent env config ctx symbol dueUnknownOrders acc
      match acc.recent with
      | none => pure acc
      | some recent =>
        match matchExistingOrder row.orderId row.clientOrderId recent with
        | none => closeMissing env config ctx acc row
        | some matched => settleMatched env acc row matched

def refreshSymbol (ctx : RefreshContext) (acc : RefreshAcc) (symbol : String) :
    ExecM RefreshAcc := do
  let s ← get
  let symbolOrders := ctx.localOrders.filter fun row => row.symbol == symbol
  let throttled := (s.lastLifecycleRefreshAt[symbol]?).any fun last =>
    decide (ctx.nowMono - last < lifecycleRefreshMinIntervalSeconds)
  if symbolOrders.isEmpty && throttled then
    pure { acc with summary := { acc.summary with
      refreshSkippedDueToThrottleCount := acc.summary.refreshSkippedDueToThrottleCount + 1 } }
  else do
    modify fun s => { s with
      lastLifecycleRefreshAt := s.lastLifecycleRefreshAt.insert symbol ctx.nowMono }
    let dueUnknownOrders := symbolOrders.filter fun row =>
      row.status == .unknown && isUnknownProbeDue row.unknownNextProbeAt ctx.nowMs
    let acc := { acc with
      recent := none
      summary := { acc.summary with
        openOrdersCallsCount := acc.summary.openOrdersCallsCount + 1 } }
    match ← attempt (call env fun tick => env.getOpenOrders tick symbol) with
    | .error exc => do
      record (.openOrdersFailed symbol)
      emit (.readFailed symbol)
      pure (acc.failed "open_orders" exc)
    | .ok items => do
      let openSnapshots := openItemsToSnapshots items
      record (.openOrders symbol openSnapshots)
      let acc ← openSnapshots.foldlM (saveOpenSnapshot env) acc
      symbolOrders.foldlM (reconcileLocal env config ctx symbol openSnapshots dueUnknownOrders) acc

/-- The distinct symbols in order. -/
def sortedSymbols (symbols : List String) : List String :=
  (symbols.map normalizeSymbol).dedup.insertionSort (· ≤ ·)

/-- The error code of a finished refresh, and the cooldown after a rate limit. -/
def closeRefresh (ctx : RefreshContext) (acc : RefreshAcc) : ExecM RefreshSummary := do
  let limited := decide (0 < acc.summary.backoff429Count)
  let summary := { acc.summary with errorCode :=
    if limited then "EXCHANGE_429_BACKOFF"
    else if 0 < acc.summary.markedMissing then "ORDER_LIFECYCLE_DRIFT"
    else "" }
  modify fun s => { s with
    lifecycleBackoffUntil := if limited then
      max s.lifecycleBackoffUntil (ctx.nowMono + lifecycleBackoffCooldownSeconds)
      else s.lifecycleBackoffUntil
    lastLifecycleRefreshSummary := some summary }
  syncUnknownRegistryFromStore (!acc.reconcileFailed)
  pure summary

def refreshSymbols (symbols : List String) (skipNonEssential : Bool) : ExecM RefreshSummary := do
  let s ← get
  let localOrders := findOpenOrUnknownOrders s.orders symbols
  let t ← now env
  let nowMono ← ask env env.monotonic
  let s ← get
  let summary : RefreshSummary := {
    symbols := symbols
    skipNonEssential := skipNonEssential
    localOpenUnknown := localOrders.length }
  if nowMono < s.lifecycleBackoffUntil then do
    let summary := { summary with
      skippedDueToBackoffCooldown := true
      errorCode := "EXCHANGE_429_BACKOFF"
      backoffRemainingSeconds := some (max 0 (s.lifecycleBackoffUntil - nowMono)) }
    modify fun s => { s with lastLifecycleRefreshSummary := some summary }
    pure summary
  else do
    let ctx : RefreshContext := ⟨localOrders, toMs t, nowMono, skipNonEssential⟩
    let acc ← symbols.foldlM (refreshSymbol env config ctx) { summary := summary }
    closeRefresh ctx acc

def refreshOrderLifecycle (symbols : List String) (skipNonEssential : Bool) :
    ExecM RefreshSummary := do
  let symbols := sortedSymbols symbols
  if symbols = [] then do
    let summary : RefreshSummary := { symbols := [], skipNonEssential := skipNonEssential }
    modify fun s => { s with lastLifecycleRefreshSummary := some summary }
    pure summary
  else do
    emit .refreshStarted
    let summary ← refreshSymbols env config symbols skipNonEssential
    emit .refreshFinished
    pure summary

end Lifecycle

end Stage3Service
