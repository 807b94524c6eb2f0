import Btcbot.Stage3Service

/-!
# The stage 3 execution service: cancelling and placing orders

Each write goes through the same steps: the idempotency key is reserved, the
action recorded under its dedupe key, the exchange asked, and the row finalized
with what came back. An uncertain answer is reconciled against the exchange.
-/
namespace Stage3Service

open PyData ExchangeErrors OrderSizing Stage3Store Stage3Intent Idempotency ExecutionWrapper

def placeOrderIdempotencyTtlSeconds : ℤ := 7 * 24 * 60 * 60

def cancelOrderIdempotencyTtlSeconds : ℤ := 24 * 60 * 60

section Policy

variable (env : Env) (config : Config)

def notArmedMessage : String :=
  "Live trading is not armed; set LIVE_TRADING=true and LIVE_TRADING_ACK=I_UNDERSTAND"

/-- The reasons that block live side effects, in the order they are found, with their messages. -/
def policyReasons (killSwitch : Bool) : List (String × String) :=
  (if (strip config.processRole).toUpper = "MONITOR" then
    [("MONITOR_ROLE", "MONITOR role blocks side effects")] else []) ++
  (if killSwitch then [("KILL_SWITCH", "KILL_SWITCH=true blocks side effects")] else []) ++
  (if config.dryRun then [("DRY_RUN", "DRY_RUN=true blocks side effects")] else []) ++
  (if config.liveTradingEnabled then [] else [("NOT_ARMED", notArmedMessage)]) ++
  (if config.liveTradingAck then [] else [("ACK_MISSING", notArmedMessage)])

def ensureLiveSideEffectsAllowed : ExecM Unit := do
  let s ← get
  match policyReasons config s.killSwitch with
  | [] => pure ()
  | (reason, message) :: rest =>
    throw (.liveTradingNotArmed message (reason :: rest.map Prod.fst))

def submissionGuardedByRuntimeState : ExecM Bool := do
  if config.dryRun then pure false
  else do
    let killEnabled ← ask env fun tick => env.storedKillSwitch tick config.processRole
    if killEnabled then pure true
    else do
      let policyBlocked ← ask env env.tradingBlockedByPolicy
      if policyBlocked then pure true
      else do
        let snapshot ← call env env.healthSnapshot
        pure (snapshot.degraded || snapshot.breakerOpen)

end Policy

section Recovery

variable (env : Env)

/-- A reservation whose action was recorded before takes that action's outcome for its own. -/
def handleReservationWithoutNewAction (actionType : String) (k : RowKey) (dedupeKey : String) :
    ExecM IdempotencyStatus := do
  let s ← get
  match getActionByDedupeKey s.actions dedupeKey with
  | some row => do
    let status := if startsWithText "would_" actionType then .simulated else .committed
    emit (.adopted dedupeKey row.orderId)
    finalizeKey env k ⟨some row.id, row.clientOrderId, row.orderId, status⟩
    pure status
  | none => do
    finalizeKey env k ⟨none, none, none, .failed⟩
    pure .failed

end Recovery

section Cancel

variable (env : Env) (config : Config)

def wasSubmittedInCycle (actions : List ActionRow) (cycleId : String) (order : Order) : Bool :=
  actions.any fun row => row.cycleId == cycleId && row.actionType == "place_order" &&
    (row.orderId == some order.orderId ||
      (order.clientOrderId.isSome && row.clientOrderId == order.clientOrderId))

def findCanceled (order : Order) : ExecM ReconcileOutcome := do
  let symbol := normalizeSymbol order.symbol
  let outcome (status : ReconcileStatus) (reason : String) : ReconcileOutcome :=
    ⟨status, some order.orderId, reason⟩
  let items ← call env fun tick => env.getOpenOrders tick symbol
  if items.any fun item => toString item.id == order.orderId then
    pure (outcome .unknown "order still present in openOrders")
  else do
    let startAt ← now env
    let endAt ← now env
    let recent ← call env fun tick =>
      env.getAllOrders tick symbol (toMs (startAt - 3600000000)) (toMs endAt)
    match matchExistingOrder order.orderId order.clientOrderId recent with
    | none => pure (outcome .unknown "order absent in openOrders but not found in allOrders")
    | some matched =>
      match matched.status with
      | .filled => pure (outcome .confirmed "order filled")
      | .canceled => pure (outcome .confirmed "order canceled")
      | _ => pure (outcome .unknown "order status unresolved")

def reconcileCancel (order : Order) : ExecM ReconcileOutcome := do
  match ← attempt (findCanceled env order) with
  | .ok outcome => pure outcome
  | .error _ => pure ⟨.unknown, some order.orderId, "reconcile error"⟩

def finalizeCancel (order : Order) (actionId : ℕ) (status : IdempotencyStatus) : ExecM Unit :=
  finalizeKey env ("cancel_order", "cancel:" ++ order.orderId)
    ⟨some actionId, order.clientOrderId, some order.orderId, status⟩

/-- A cancel that failed frees its key and its dedupe key. -/
def failCancel (order : Order) (actionId : ℕ) : ExecM Unit := do
  finalizeCancel env order actionId .failed
  clearDedupeKey env actionId

def settleUncertainCancel (order : Order) (actionId : ℕ) : ExecM ℕ := do
  let outcome ← reconcileCancel env order
  attachMetadata env actionId order.clientOrderId (some order.orderId)
  match outcome.status with
  | .unknown => do
    let t ← now env
    storeOrderStatus env { orderId := order.orderId, status := .unknown, reconciled := some true }
    markUnknown order.orderId
      (if outcome.reason = "" then "cancel_reconcile_unknown" else outcome.reason) (toMs t)
    finalizeCancel env order actionId .unknown
    pure 0
  | .confirmed => do
    let resolved := if containsText "filled" outcome.reason.toLower then OrderStatus.filled
      else .canceled
    storeOrderStatus env { orderId := order.orderId, status := resolved, reconciled := some true }
    finalizeCancel env order actionId .committed
    pure 1
  | .notFound => do
    failCancel env order actionId
    pure 0

def sleep : ExecM Unit := do
  let _ ← point env
  pure ()

def cancelLive (order : Order) (actionId : ℕ) : ExecM ℕ := do
  let cancel : ExecM (WrapperResult Bool) :=
    execute .cancel config.cancelRetryMaxAttempts (sleep env) fun _ =>
      call env fun tick => env.cancelOrder tick order.orderId
  match ← attempt cancel with
  | .ok (.uncertainResult _) => settleUncertainCancel env order actionId
  | .ok (.value true) => do
    storeOrderStatus env { orderId := order.orderId, status := .canceled }
    attachMetadata env actionId order.clientOrderId (some order.orderId)
    finalizeCancel env order actionId .committed
    pure 1
  | .ok (.value false) | .error _ => do
    failCancel env order actionId
    pure 0

/-- The cancel of a reserved key: how many orders it counts as canceled. -/
def cancelReserved (cycleId : String) (order : Order) : ExecM ℕ := do
  let actionType := if config.dryRun then "would_cancel_order" else "cancel_order"
  let dedupeKey := actionType ++ ":" ++ ("cancel:" ++ order.orderId)
  match ← addAction env cycleId actionType (cancelHash config.text order.orderId) dedupeKey with
  | none => do
    let _ ← handleReservationWithoutNewAction env actionType
      ("cancel_order", "cancel:" ++ order.orderId) dedupeKey
    pure 0
  | some actionId => do
    finalizeCancel env order actionId .pending
    if config.dryRun then do
      finalizeCancel env order actionId .simulated
      pure 1
    else cancelLive env config order actionId

def isStale (t : ℤ) (order : Order) : Bool :=
  order.createdAt.aware && order.status != .unknown &&
    decide (config.ttlSeconds * 1000000 < t - order.createdAt.micros)

def cancelStaleOrder (cycleId : String) (t : ℤ) (canceled : ℕ) (order : Order) : ExecM ℕ := do
  let s ← get
  if !isStale config t order || wasSubmittedInCycle s.actions cycleId order then pure canceled
  else do
    if config.dryRun = false then ensureLiveSideEffectsAllowed config
    let reservation ← reserveKey env ("cancel_order", "cancel:" ++ order.orderId)
      ⟨cancelHash config.text order.orderId, cancelOrderIdempotencyTtlSeconds, !config.dryRun⟩
    if reservation.reserved then do
      let more ← cancelReserved env config cycleId order
      pure (canceled + more)
    else pure canceled

def cancelStaleOrders (cycleId : String) : ExecM ℕ := do
  match ← attempt (call env env.listOpenOrders) with
  | .error _ => pure 0
  | .ok openOrders => do
    let s ← get
    if s.safeMode || s.killSwitch then pure 0
    else do
      let guarded ← submissionGuardedByRuntimeState env config
      if guarded then pure 0
      else do
        pruneKeys env
        let t ← now env
        openOrders.foldlM (cancelStaleOrder env config cycleId t) 0

end Cancel

section Balances

variable (env : Env) (config : Config)

def knownQuotes : List String := ["TRY", "USDT", "USDC", "BTC", "ETH", "EUR", "USD"]

/-- The text before the ending, when there is such a text. -/
def dropEnding (ending text : String) : Option String :=
  if ending.toList.isSuffixOf text.toList ∧ ending.length < text.length then
    some (takeText (text.length - ending.length) text)
  else none

def splitSymbol (symbol : String) : Except Exc (String × String) :=
  let found := knownQuotes.findSome? fun quote =>
    (dropEnding quote (canonicalSymbol symbol)).map fun base => (base, quote)
  match found with
  | some assets => .ok assets
  | none => .error (.valueError s!"Could not split symbol into base/quote: {symbol}")

def deriveSymbolAssets (symbol : String) : Except Exc (String × String) :=
  let normalized := normalizeSymbol symbol
  match splitSymbol normalized with
  | .ok (base, quote) => .ok (base.toUpper, quote.toUpper)
  | .error exc =>
    match config.executionQuoteAssetOverride with
    | none => .error exc
    | some quote => .ok ((dropEnding quote normalized).getD normalized, quote)

structure BalanceCheck where
  sufficient : Bool
  asset : Option String := none
  required : Option ℚ := none
  available : Option ℚ := none
  deriving DecidableEq, Repr

def checkAvailable (asset : String) (required available : ℚ) : BalanceCheck :=
  if available < required then ⟨false, some asset, some required, some available⟩
  else { sufficient := true }

def checkBalancePrecondition (balances : Option (Dict ℚ)) (symbol : String) (side : OrderSide)
    (price quantity : ℚ) : Except Exc BalanceCheck := do
  let (baseAsset, quoteAsset) ← deriveSymbolAssets config symbol
  let sold := quantity + quantity * (config.sellFeeInBaseBps / 10000)
  let known := balances.filter fun balances => !balances.isEmpty
  match known, side with
  | none, .sell =>
    if config.spotSellRequiresInventory then
      .ok ⟨false, some baseAsset, some sold, some 0⟩
    else .ok { sufficient := true }
  | none, .buy => .ok { sufficient := true }
  | some balances, .buy =>
    let asset := config.executionQuoteAssetOverride.getD quoteAsset
    let notional := price * quantity
    let required := notional + notional * (config.estimatedFeeBps / 10000) +
      notional * config.balanceSafetyBufferRatio
    .ok (checkAvailable asset required (balances[asset]?.getD 0))
  | some balances, .sell => .ok (checkAvailable baseAsset sold (balances[baseAsset]?.getD 0))

def balanceByAsset : ExecM (Dict ℚ) := do
  let balances ← call env env.getBalances
  pure (balances.foldl (fun (d : Dict ℚ) item => d.insert item.1.toUpper item.2) ∅)

def getCycleBalances (cycleId : Option String) : ExecM (Option (Dict ℚ)) := do
  match cycleId.filter (· ≠ "") with
  | none => pure none
  | some cycleId => do
    let s ← get
    match s.cycleBalanceCache.lookup cycleId with
    | some balances => pure (some balances)
    | none =>
      match ← attempt (balanceByAsset env) with
      | .error _ => pure none
      | .ok fetched => do
        rememberCycleBalanceSnapshot cycleId fetched
        pure (some fetched)

end Balances

section Submit

variable (env : Env) (config : Config)

/-- An intent that passed the checks, with the names its order goes by. -/
structure Placement where
  cycleId : String
  intentId : Option String
  symbol : String
  side : OrderSide
  price : ℚ
  quantity : ℚ
  computedNotionalTry : ℚ
  payloadHash : String
  key : String
  clientOrderId : String
  deriving DecidableEq, Repr

def Placement.request (p : Placement) : PlaceRequest :=
  ⟨p.symbol, p.side, p.price, p.quantity, p.clientOrderId⟩

/-- The call that may create an order on the exchange. -/
def submitCall (p : Placement) (number : ℕ) : ExecM Ack := do
  if p.symbol = "" then throw (.valueError "missing required submit field: symbol")
  let tick ← point env
  let s ← get
  let answer := env.placeOrder tick p.request
  emit (.place {
    key := p.key
    clientOrderId := p.clientOrderId
    attempt := number
    maxAttempts := max 1 config.submitRetryMaxAttempts
    unknownOrders := (listUnknownOrders s.orders).map StoredOrder.orderId
    registryUnknown := s.registry.keys
    answer := answer })
  liftExcept answer.result

def submitLimitOrder (p : Placement) : ExecM (WrapperResult String) := do
  syncUnknownRegistryFromStore false
  let s ← get
  if s.registry.isEmpty then do
    let result ← execute .submit config.submitRetryMaxAttempts (sleep env) (submitCall env config p)
    match result with
    | .uncertainResult exc => pure (.uncertainResult exc)
    | .value ack => do
      let orderId ← liftExcept (mapExchangeAckToSubmitResult ack)
      pure (.value orderId)
  else throw (.submitBlockedDueToUnknown "submit blocked while unknown orders exist")

def findSubmitted (p : Placement) : ExecM ReconcileOutcome := do
  let items ← call env fun tick => env.getOpenOrders tick p.symbol
  let snapshots := openItemsToSnapshots items
  match matchOrderByClientId snapshots p.clientOrderId with
  | some matched =>
    pure ⟨.confirmed, some matched.orderId, "found in openOrders by client_order_id"⟩
  | none => do
    let t ← now env
    let fields : MatchFields := ⟨p.symbol, p.side, p.price, p.quantity, 1 / 100000000,
      toMs t - 5 * 60 * 1000, toMs t⟩
    match fallbackMatchByFields snapshots fields with
    | some matched =>
      pure ⟨.confirmed, some matched.orderId, "found in openOrders by fallback fields"⟩
    | none => do
      let allOrders ← call env fun tick =>
        env.getAllOrders tick p.symbol fields.startMs fields.endMs
      match matchOrderByClientId allOrders p.clientOrderId with
      | some matched =>
        pure ⟨.confirmed, some matched.orderId, "found in allOrders by client_order_id"⟩
      | none =>
        match fallbackMatchByFields allOrders fields with
        | some matched =>
          pure ⟨.confirmed, some matched.orderId, "found in allOrders by fallback fields"⟩
        | none => pure ⟨.notFound, none, "not found after checks"⟩

/-- The order id the exchange knows the placement by, when reconciliation finds one. -/
def reconcileSubmit (p : Placement) : ExecM ReconcileOutcome := do
  match ← attempt (findSubmitted env p) with
  | .error _ => pure ⟨.unknown, none, "reconcile error"⟩
  | .ok outcome => do
    match outcome.orderId with
    | some orderId => emit (.matched p.clientOrderId orderId)
    | none => pure ()
    pure outcome

end Submit

section Settle

variable (env : Env) (config : Config)

def finalizePlace (p : Placement) (actionId : Option ℕ) (orderId : Option String)
    (status : IdempotencyStatus) : ExecM Unit :=
  finalizeKey env ("place_order", p.key) ⟨actionId, some p.clientOrderId, orderId, status⟩

/-- The order row of a placement. -/
def Placement.order (p : Placement) (orderId : String) (clientOrderId : Option String)
    (status : OrderStatus) (createdAt updatedAt : ℤ) : Order where
  orderId := orderId
  clientOrderId := clientOrderId
  symbol := p.symbol
  side := p.side
  price := p.price
  quantity := p.quantity
  status := status
  createdAt := ⟨createdAt, true⟩
  updatedAt := ⟨updatedAt, true⟩

/-- The exchange refused: the key and the dedupe key are free again. -/
def rejectSubmit (p : Placement) (actionId : ℕ) (exc : Exc) : ExecM Unit := do
  let t ← now env
  let createdAt ← now env
  let updatedAt ← now env
  let keyText := takeText 12 p.key
  let orderId := s!"rejected:{p.clientOrderId}:{keyText}:{toMs t}"
  storeOrder env {
    order := p.order orderId none .rejected createdAt updatedAt
    reconciled := true
    exchangeStatusRaw := some (failureText exc)
    idempotencyKey := some p.key
    intentId := p.intentId }
  finalizePlace env p (some actionId) none .failed
  clearDedupeKey env actionId

/-- Nobody knows whether there is an order: it is stored as unknown and freezes the service. -/
def markSubmitUnknown (p : Placement) (actionId : ℕ) (outcome : ReconcileOutcome) :
    ExecM Unit := do
  attachMetadata env actionId (some p.clientOrderId) none
  finalizePlace env p (some actionId) none .unknown
  let orderId := "unknown:" ++ p.clientOrderId
  let t ← now env
  storeOrder env {
    order := p.order orderId (some p.clientOrderId) .unknown t t
    reconciled := true
    idempotencyKey := some p.key
    intentId := p.intentId }
  markUnknown orderId
    (if outcome.reason = "" then "submit_reconcile_unknown" else outcome.reason) (toMs t)

/-- The tail shared by an acknowledged order and one found again. -/
def commitPlaced (p : Placement) (actionId : ℕ) (orderId : String) : ExecM Unit := do
  attachMetadata env actionId (some p.clientOrderId) (some orderId)
  finalizePlace env p (some actionId) (some orderId) .committed

def storePlaced (p : Placement) (actionId : ℕ) (orderId : String) : ExecM Unit := do
  let t ← now env
  storeOrder env {
    order := p.order orderId (some p.clientOrderId) .open t t
    idempotencyKey := some p.key
    intentId := p.intentId }
  commitPlaced env p actionId orderId

/-- An uncertain error was raised: the order is found again, or the outcome stays unknown. -/
def settleUncertainError (p : Placement) (actionId : ℕ) : ExecM ℕ := do
  let outcome ← reconcileSubmit env p
  match outcome.status, outcome.orderId with
  | .confirmed, some orderId => do
    let createdAt ← now env
    let updatedAt ← now env
    storeOrder env {
      order := p.order orderId (some p.clientOrderId) .new createdAt updatedAt
      reconciled := true
      idempotencyKey := some p.key
      intentId := p.intentId }
    storeOrderStatus env { orderId := orderId, status := .open, reconciled := some true }
    commitPlaced env p actionId orderId
    pure 1
  | _, _ => do
    markSubmitUnknown env p actionId outcome
    pure 0

/-- An uncertain result was returned: as above, the order being stored open at once. -/
def settleUncertainResult (p : Placement) (actionId : ℕ) : ExecM ℕ := do
  let outcome ← reconcileSubmit env p
  match outcome.status, outcome.orderId with
  | .confirmed, some orderId => do
    storePlaced env p actionId orderId
    pure 1
  | _, _ => do
    markSubmitUnknown env p actionId outcome
    pure 0

def ExecuteSummary.placed (acc : ExecuteSummary) (n : ℕ) : ExecuteSummary :=
  { acc with ordersSubmitted := acc.ordersSubmitted + n }

def ExecuteSummary.failed (acc : ExecuteSummary) (minNotional : Bool) : ExecuteSummary :=
  { acc with
    ordersFailedExchange := acc.ordersFailedExchange + 1
    rejectedMinNotional := acc.rejectedMinNotional + if minNotional then 1 else 0 }

def settleError (acc : ExecuteSummary) (p : Placement) (actionId : ℕ) (exc : Exc) :
    ExecM ExecuteSummary := do
  let acc := acc.failed (isKnownMinNotionalReject exc)
  if isUncertainError exc then do
    let placed ← settleUncertainError env p actionId
    pure (acc.placed placed)
  else do
    rejectSubmit env p actionId exc
    pure acc

def submitAndSettle (acc : ExecuteSummary) (p : Placement) (actionId : ℕ) :
    ExecM ExecuteSummary := do
  let acc := { acc with attemptedExchangeCalls := acc.attemptedExchangeCalls + 1 }
  match ← attempt (submitLimitOrder env config p) with
  | .error (.submitBlockedDueToUnknown message) => throw (.submitBlockedDueToUnknown message)
  | .error exc => settleError env acc p actionId exc
  | .ok (.uncertainResult _) => do
    let placed ← settleUncertainResult env p actionId
    pure ((acc.failed false).placed placed)
  | .ok (.value orderId) => do
    storePlaced env p actionId orderId
    pure (acc.placed 1)

def simulatePlace (acc : ExecuteSummary) (p : Placement) (actionId : ℕ) :
    ExecM ExecuteSummary := do
  attachMetadata env actionId (some p.clientOrderId) none
  finalizePlace env p (some actionId) none .simulated
  pure { acc with
    wouldSubmitOrders := acc.wouldSubmitOrders + 1
    wouldSubmitNotionalTry := acc.wouldSubmitNotionalTry + p.computedNotionalTry
    ordersSimulated := acc.ordersSimulated + 1 }

def placeReserved (acc : ExecuteSummary) (p : Placement) : ExecM ExecuteSummary := do
  finalizePlace env p none none .pending
  let actionType := if config.dryRun then "would_place_order" else "place_order"
  let dedupeKey := actionType ++ ":" ++ p.key
  match ← addAction env p.cycleId actionType p.payloadHash dedupeKey with
  | none => do
    let _ ← handleReservationWithoutNewAction env actionType ("place_order", p.key) dedupeKey
    pure acc
  | some actionId => do
    finalizePlace env p (some actionId) none .pending
    if config.dryRun then simulatePlace env acc p actionId
    else submitAndSettle env config acc p actionId

end Settle

section Pending

variable (env : Env) (config : Config)

def lookupStalePending (symbol clientOrderId : String) : ExecM (Option OrderSnapshot) := do
  let items ← call env fun tick => env.getOpenOrders tick symbol
  match matchOrderByClientId (openItemsToSnapshots items) clientOrderId with
  | some matched => pure (some matched)
  | none => do
    let t ← now env
    let allOrders ← call env fun tick =>
      env.getAllOrders tick symbol (toMs t - 5 * 60 * 1000) (toMs t)
    pure (matchOrderByClientId allOrders clientOrderId)

def recoveryBackoff (attempts : ℤ) : ℤ :=
  min (config.pendingRecoveryBackoffSeconds * 2 ^ (attempts - 1).toNat)
    (config.pendingRecoveryBackoffSeconds * 2 ^ (config.pendingRecoveryMaxAttempts - 1).toNat)

def recoverStalePendingPlaceOrder (symbol key clientOrderId : String) (row : IdempotencyRow) :
    ExecM Unit := do
  let t ← now env
  let nowEpoch := toEpoch t
  if row.nextRecoveryAtEpoch.any (fun next => decide (nowEpoch < next)) then pure ()
  else match ← attempt (lookupStalePending env (normalizeSymbol symbol) clientOrderId) with
  | .error _ => do
    let attempts := row.recoveryAttempts + 1
    let terminal := decide (config.pendingRecoveryMaxAttempts ≤ attempts)
    updateRecovery env ("place_order", key) {
      recoveryAttempts := attempts
      nextRecoveryAtEpoch := if terminal then none else some (nowEpoch + recoveryBackoff config attempts)
      status := some (if terminal then .failed else .pending) }
  | .ok (some matched) => do
    emit (.recovered key clientOrderId matched.orderId)
    finalizeKey env ("place_order", key)
      ⟨row.actionId, some clientOrderId, some matched.orderId, .committed⟩
    updateRecovery env ("place_order", key) { recoveryAttempts := 0, nextRecoveryAtEpoch := none }
  | .ok none => do
    finalizeKey env ("place_order", key) ⟨row.actionId, some clientOrderId, none, .failed⟩
    updateRecovery env ("place_order", key) { recoveryAttempts := 0, nextRecoveryAtEpoch := none }

/-- The key was not reserved: a pending row past its grace is looked up on the exchange. -/
def handleDuplicate (symbol key : String) (row : IdempotencyRow) : ExecM Unit := do
  let t ← now env
  let age := max 0 (toEpoch t - row.createdAtEpoch)
  match row.clientOrderId.filter (· ≠ "") with
  | none => pure ()
  | some clientOrderId =>
    if row.status = .pending ∧ config.pendingGraceSeconds < age then
      recoverStalePendingPlaceOrder env config symbol key clientOrderId row
    else pure ()

end Pending

section Execute

variable (env : Env) (config : Config)

def symbolRulesForExecution (symbol : String) : ExecM SymbolRules :=
  if config.marketData then call env fun tick => env.getSymbolRules tick symbol
  else pure {
    pairSymbol := symbol
    priceScale := 8
    quantityScale := 8
    minTotal := some config.fallbackMinNotionalTry }

/-- Price, quantity and notional of the order an intent asks for. -/
def sizeIntent (intent : OrderIntent) : ExecM OrderSizingResult := do
  if !config.marketData && config.dryRun then
    pure ⟨.ok, intent.price, intent.quantity, intent.price * intent.quantity, none⟩
  else do
    let rules ← symbolRulesForExecution env config (normalizeSymbol intent.symbol)
    liftExcept (sizeOrderFromNotional intent.notional intent.price rules
      config.fallbackMinNotionalTry config.allowMinNotionalUpgrade)

def ExecuteSummary.rejectedSizing (acc : ExecuteSummary) (status : OrderSizingStatus) :
    ExecuteSummary :=
  let below := if status = .belowMinNotional then 1 else 0
  { acc with
    rejectedIntents := acc.rejectedIntents + 1
    rejectedMinNotional := acc.rejectedMinNotional + if config.dryRun then 0 else below
    wouldRejectMinNotional := acc.wouldRejectMinNotional + if config.dryRun then below else 0 }

/-- The rules the payload hash quantizes with; a failed lookup hashes the raw fields. -/
def rulesForHash (symbol : String) : ExecM (Option SymbolRules) :=
  if config.marketData then do
    match ← attempt (call env fun tick => env.getSymbolRules tick symbol) with
    | .ok rules => pure (some rules)
    | .error _ => pure none
  else pure none

def placeIntent (acc : ExecuteSummary) (intent : OrderIntent) (raw : Option Intent)
    (sizing : OrderSizingResult) : ExecM ExecuteSummary := do
  let symbol := normalizeSymbol intent.symbol
  let rules ← rulesForHash env config symbol
  let p : Placement := {
    cycleId := intent.cycleId
    intentId := raw.map Intent.intentId
    symbol := symbol
    side := intent.side
    price := sizing.quantizedPrice
    quantity := sizing.quantizedQuantity
    computedNotionalTry := sizing.notionalTry
    payloadHash := placeHash config.text rules intent
    key := placeIdempotencyKey config.text intent raw
    clientOrderId := makeClientOrderId config.text intent }
  let reservation ← reserveKey env ("place_order", p.key)
    ⟨p.payloadHash, placeOrderIdempotencyTtlSeconds, !config.dryRun⟩
  if reservation.reserved then placeReserved env config acc p
  else do
    handleDuplicate env config intent.symbol p.key reservation.row
    pure acc

def processIntent (balances : Option (Dict ℚ)) (acc : ExecuteSummary)
    (item : OrderIntent × Option Intent) : ExecM ExecuteSummary := do
  let (intent, raw) := item
  if config.dryRun = false then ensureLiveSideEffectsAllowed config
  let sizing ← sizeIntent env config intent
  if sizing.status ≠ .ok then pure (acc.rejectedSizing config sizing.status)
  else if config.dryRun then placeIntent env config acc intent raw sizing
  else do
    let check ← liftExcept (checkBalancePrecondition config balances
      (normalizeSymbol intent.symbol) intent.side sizing.quantizedPrice sizing.quantizedQuantity)
    if check.sufficient then placeIntent env config acc intent raw sizing
    else pure { acc with
      intentsRejectedPrecheck := acc.intentsRejectedPrecheck + 1
      rejectedIntents := acc.rejectedIntents + 1 }

def submitIntents (intents : List (OrderIntent × Option Intent)) : ExecM ℕ := do
  let balances ← if config.dryRun then pure none
    else getCycleBalances env (intents.head?.map fun item => item.1.cycleId)
  let summary ← intents.foldlM (processIntent env config balances) {}
  modify fun s => { s with lastExecuteSummary := some summary }
  pure summary.ordersSubmitted

/-- The checks made once a call, before any intent is looked at. -/
def guardAndSubmit (intents : List (OrderIntent × Option Intent)) : ExecM ℕ := do
  let s ← get
  if s.safeMode || s.killSwitch then pure 0
  else do
    let guarded ← submissionGuardedByRuntimeState env config
    if guarded then pure 0
    else do
      let s ← get
      if s.registry.isEmpty then submitIntents env config intents
      else throw (.submitBlockedDueToUnknown "submit blocked while unknown orders exist")

def refreshOnce (intents : List (OrderIntent × Option Intent)) : ExecM Unit := do
  let cycleId := intents.head?.map fun item => item.1.cycleId
  let s ← get
  if wasLifecycleRefreshed s cycleId then pure ()
  else do
    let _ ← refreshOrderLifecycle env config (intents.map fun item => item.1.symbol) false
    match cycleId with
    | some cycleId => markLifecycleRefreshed cycleId
    | none => pure ()

def executeIntents (raws : List RawIntent) (cycleId : Option String) : ExecM ℕ := do
  let intents ← liftExcept (raws.mapM (normalizeIntent config.text cycleId))
  refreshOnce env config intents
  pruneKeys env
  modify fun s => { s with lastExecuteSummary := some {} }
  syncUnknownRegistryFromStore false
  guardAndSubmit env config intents

end Execute

section Runs

variable (env : Env)

/-- The constructor: fresh attributes over the same store, and the log goes on. -/
def construct (config : Config) : ExecM Unit := do
  modify fun s => {
    orders := s.orders
    idempotency := s.idempotency
    actions := s.actions
    tick := s.tick
    events := s.events
    answers := s.answers
    safeMode := config.safeMode
    killSwitch := config.killSwitch }
  syncUnknownRegistryFromStore true

inductive ServiceCall where
  | executeIntents (raws : List RawIntent) (cycleId : Option String)
  | refreshOrderLifecycle (symbols : List String) (skipNonEssential : Bool)
  | cancelStaleOrders (cycleId : String)

def ServiceCall.program (config : Config) : ServiceCall → ExecM Unit
  | .executeIntents raws cycleId => do
    emit .called
    let _ ← Stage3Service.executeIntents env config raws cycleId
    pure ()
  | .refreshOrderLifecycle symbols skipNonEssential => do
    emit .called
    let _ ← Stage3Service.refreshOrderLifecycle env config symbols skipNonEssential
    pure ()
  | .cancelStaleOrders cycleId => do
    emit .called
    let _ ← Stage3Service.cancelStaleOrders env config cycleId
    pure ()

/-- The state a program leaves, whether it returns, raises or is stopped. -/
def stateAfter {α : Type} (m : ExecM α) (s : Sys) : Sys :=
  match m s with
  | .ok _ t => t
  | .error _ t => t

/-- One call of the service, under the settings it has at that call. -/
def stepCall (s : Sys) (input : Config × ServiceCall) : Sys :=
  stateAfter (input.2.program env input.1) s

/-- A call, or a new service over the store of the old one. -/
inductive ServiceInput where
  | call (config : Config) (serviceCall : ServiceCall)
  | restart (config : Config)

def stepInput (s : Sys) : ServiceInput → Sys
  | .call config serviceCall => stepCall env s (config, serviceCall)
  | .restart config => stateAfter (construct config) s

theorem stateAfter_of_triple {α : Type} {m : ExecM α} {P I : Sys → Prop} {s : Sys}
    (h : Effects.Triple P m (fun _ => I) (fun _ => I)) (hs : P s) : I (stateAfter m s) := by
  have hends := h s hs
  unfold Effects.Ends at hends
  unfold stateAfter
  cases hm : m s with
  | ok a t => simpa [hm] using hends
  | error e t => simpa [hm] using hends

end Runs

section Sample

/-- An exchange that knows no orders, creates every order placed and holds enough balance. -/
def quietEnv : Env where
  now _ := 0
  monotonic _ := 0
  crash _ := false
  getOpenOrders _ _ := .ok []
  getAllOrders _ _ _ _ := .ok []
  listOpenOrders _ := .ok []
  placeOrder _ _ := ⟨true, .ok (.submitOrderResult "1")⟩
  cancelOrder _ _ := .ok true
  getBalances _ := .ok [("TRY", 1000)]
  healthSnapshot _ := .ok ⟨false, false⟩
  storedKillSwitch _ _ := false
  tradingBlockedByPolicy _ := false
  getSymbolRules _ _ := .error (.runtimeError "no market data")

/-- One whole unit of the base asset at a price of a hundred. -/
def sampleIntent : OrderIntent where
  symbol := "BTC_TRY"
  side := .buy
  price := 100
  quantity := 1
  notional := 100
  cycleId := "cycle-1"

/-- The text functions at the sample intent, where every amount is whole. -/
def sampleText : TextOps where
  sha256 text := ([("BTCTRY|buy|100|1",
      "3cbdd849837b1973814a5e8b23f9c2c44f191c6927f56fa4aa32989e5e4b6ffd"),
    ("default|BTCTRY|buy|100.00000000|1.00000000|100.00000000|",
      "87bca0313443242e0fdc86e737653df0b39b1490b923332e733040706f0678cd")].lookup text).getD ""
  fixed8 q := toString q.num ++ ".00000000"
  plain q := toString q.num
  viaFloat q := q

def sampleConfig : Config := { text := sampleText }

def sampleCall : ServiceCall := .executeIntents [.orderIntent sampleIntent] none

def sampleClientOrderId : String := "meva2-BTCTRY-b-87bca0313443242e-a0"

example : makeClientOrderId sampleText sampleIntent = sampleClientOrderId := by decide +kernel

end Sample

end Stage3Service
