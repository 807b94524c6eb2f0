import Btcbot.Grid
import Btcbot.PyData
import Btcbot.Runs
import Mathlib.Data.List.Sort

/-!
# The stage 7 order service

Each intent of a batch starts from the order in the store. Its submit key is
registered at once; the orders and events of the batch are stored together at
the end, the last result of a client order id last.
-/
namespace OmsService

open PyData

inductive OrderStatus where
  | planned
  | submitted
  | acked
  | partiallyFilled
  | filled
  | canceled
  | rejected
  deriving DecidableEq, Repr

def OrderStatus.terminal : OrderStatus → Bool
  | .filled | .canceled | .rejected => true
  | _ => false

def allowedTransitions : OrderStatus → List OrderStatus
  | .planned => [.submitted, .canceled, .rejected]
  | .submitted => [.acked, .canceled, .rejected]
  | .acked => [.partiallyFilled, .filled, .canceled, .rejected]
  | .partiallyFilled => [.partiallyFilled, .filled, .canceled]
  | .filled => []
  | .canceled => []
  | .rejected => []

structure Stage7Order where
  orderId : String
  clientOrderId : String
  cycleId : String
  symbol : String
  side : String
  orderType : String
  priceTry : Decimal
  qty : Decimal
  filledQty : ℚ
  avgFillPriceTry : Option ℚ
  status : OrderStatus
  lastUpdate : DateTime
  intentHash : String
  deriving DecidableEq, Repr

structure OrderIntent where
  cycleId : String
  symbol : String
  side : String
  orderType : String
  priceTry : Decimal
  qty : Decimal
  notionalTry : Decimal
  clientOrderId : String
  reason : String
  constraintsApplied : List (String × String)
  skipped : Bool := false
  skipReason : Option String := none
  deriving DecidableEq, Repr

inductive EventType where
  | submitRequested
  | acked
  | rejected
  | canceled
  | partialFill
  | filled
  | duplicateIgnored
  | throttled
  | idempotencyConflict
  | retryScheduled
  | retryGiveup
  deriving DecidableEq, Repr

def EventType.value : EventType → String
  | .submitRequested => "SUBMIT_REQUESTED"
  | .acked => "ACKED"
  | .rejected => "REJECTED"
  | .canceled => "CANCELED"
  | .partialFill => "PARTIAL_FILL"
  | .filled => "FILLED"
  | .duplicateIgnored => "DUPLICATE_IGNORED"
  | .throttled => "THROTTLED"
  | .idempotencyConflict => "IDEMPOTENCY_CONFLICT"
  | .retryScheduled => "RETRY_SCHEDULED"
  | .retryGiveup => "RETRY_GIVEUP"

/-- What the adapter's tokens raise. -/
inductive SubmitError where
  | rateLimitError
  | networkTimeout
  | temporaryUnavailable
  | nonRetryable
  deriving DecidableEq, Repr

def SubmitError.transient : SubmitError → Bool
  | .nonRetryable => false
  | _ => true

structure RetryAttempt where
  attempt : ℕ
  delayMs : ℕ
  errorType : SubmitError
  deriving DecidableEq, Repr

inductive Payload where
  | reason (reason : String) (key : Option String)
  | key (key : String) (reason : Option String)
  | nextEligible (ts : DateTime)
  | retry (attempt : RetryAttempt)
  | order (symbol side : String)
  | fill (qty price : ℚ)
  deriving DecidableEq, Repr

structure OrderEvent where
  eventId : String
  ts : DateTime
  clientOrderId : String
  orderId : String
  eventType : EventType
  payload : Payload
  cycleId : String
  deriving DecidableEq, Repr

/-- Hashes and number texts: the digest of a text, the digest of an intent, the
value of a hexadecimal text, the text of a product. -/
structure Texts where
  shortHash : String → String
  intentHash : OrderIntent → String
  hexValue : String → Option ℤ
  productText : Decimal → Decimal → String

def makeOrderId (texts : Texts) (clientOrderId : String) : String :=
  "s7o:" ++ texts.shortHash clientOrderId

def makeEventId (texts : Texts) (clientOrderId : String) (seq : ℕ) (eventType : EventType) :
    String :=
  "s7e:" ++ texts.shortHash (clientOrderId ++ ":" ++ toString seq ++ ":" ++ eventType.value)

inductive OmsError where
  | nonRetryable
  | valueError (text : String)
  | retryLoopExhausted
  | integrityError
  deriving DecidableEq, Repr

structure Store where
  stage7Orders : Dict Stage7Order := ∅
  stage7OrderEvents : List OrderEvent := []
  stage7IdempotencyKeys : Dict String := ∅

section StateStore

def getStage7OrderByClientId (store : Store) (clientOrderId : String) : Option Stage7Order :=
  store.stage7Orders[clientOrderId]?

def EventBefore (a b : OrderEvent) : Prop :=
  a.ts.micros < b.ts.micros ∨ (a.ts.micros = b.ts.micros ∧ a.eventId ≤ b.eventId)

instance : DecidableRel EventBefore := fun a b => by unfold EventBefore; infer_instance

def getStage7OrderEventsByClientId (store : Store) (clientOrderId : String) : List OrderEvent :=
  (store.stage7OrderEvents.filter (·.clientOrderId = clientOrderId)).insertionSort EventBefore

inductive Registration where
  | registered (store : Store)
  | duplicate
  | conflict

def tryRegisterIdempotencyKey (store : Store) (key payloadHash : String) : Registration :=
  match store.stage7IdempotencyKeys[key]? with
  | some existing => if existing ≠ payloadHash then .conflict else .duplicate
  | none =>
    .registered { store with
      stage7IdempotencyKeys := store.stage7IdempotencyKeys.insert key payloadHash }

/-- The row of a client order id keeps its order id; a new row needs a free one. -/
def upsertStage7Order (orders : Dict Stage7Order) (order : Stage7Order) :
    Option (Dict Stage7Order) :=
  match orders[order.clientOrderId]? with
  | some row => some (orders.insert order.clientOrderId { order with orderId := row.orderId })
  | none =>
    if orders.toList.any fun entry => entry.2.orderId == order.orderId then none
    else some (orders.insert order.clientOrderId order)

def upsertStage7Orders (orders : Dict Stage7Order) (applied : List Stage7Order) :
    Option (Dict Stage7Order) :=
  applied.foldlM upsertStage7Order orders

def appendStage7OrderEvent (events : List OrderEvent) (event : OrderEvent) : List OrderEvent :=
  if events.any fun stored => stored.eventId == event.eventId then events else events ++ [event]

def appendStage7OrderEvents (events added : List OrderEvent) : List OrderEvent :=
  added.foldl appendStage7OrderEvent events

def LoadedBefore (a b : Stage7Order) : Prop :=
  a.lastUpdate.micros < b.lastUpdate.micros ∨
    (a.lastUpdate.micros = b.lastUpdate.micros ∧ a.clientOrderId ≤ b.clientOrderId)

instance : DecidableRel LoadedBefore := fun a b => by unfold LoadedBefore; infer_instance

def loadNonTerminalOrders (store : Store) : List Stage7Order :=
  ((store.stage7Orders.toList.map Prod.snd).filter fun order => !order.status.terminal).insertionSort
    LoadedBefore

end StateStore

section Transitions

/-- What an intent has made so far of its order: the order, the event types the
order had or was given, the last sequence number and the new events. -/
structure Walk where
  order : Stage7Order
  seen : List EventType
  seq : ℕ
  events : List OrderEvent := []

def makeEvent (texts : Texts) (nowUtc : DateTime) (order : Stage7Order) (seq : ℕ)
    (eventType : EventType) (payload : Payload) : OrderEvent where
  eventId := makeEventId texts order.clientOrderId seq eventType
  ts := ensureUtc nowUtc
  clientOrderId := order.clientOrderId
  orderId := order.orderId
  eventType := eventType
  payload := payload
  cycleId := order.cycleId

def appendEvent (texts : Texts) (nowUtc : DateTime) (walk : Walk) (eventType : EventType)
    (payload : Payload) : Walk :=
  { walk with
    events := walk.events ++
      [makeEvent texts nowUtc walk.order (walk.seq + 1) eventType payload]
    order := { walk.order with lastUpdate := ensureUtc nowUtc }
    seq := walk.seq + 1 }

def appendRetries (texts : Texts) (nowUtc : DateTime) (walk : Walk)
    (attempts : List RetryAttempt) : Walk :=
  attempts.foldl (fun walk attempt =>
    appendEvent texts nowUtc walk .retryScheduled (.retry attempt)) walk

def targetStatusOf (order : Stage7Order) : EventType → OrderStatus
  | .submitRequested => .submitted
  | .acked => .acked
  | .rejected => .rejected
  | .canceled => .canceled
  | _ => order.status

/-- A quantity, its price and the status it leads to. -/
structure FillStep where
  qty : ℚ
  price : ℚ
  targetStatus : OrderStatus

def avgFillPrice (order : Stage7Order) (fill : FillStep) : Option ℚ :=
  let newFilledQty := order.filledQty + fill.qty
  if 0 < fill.qty ∧ 0 < newFilledQty then
    some ((order.avgFillPriceTry.getD 0 * order.filledQty + fill.price * fill.qty) / newFilledQty)
  else order.avgFillPriceTry

def nextStatus (order : Stage7Order) (eventType : EventType) : Option FillStep → OrderStatus
  | some fill => fill.targetStatus
  | none => targetStatusOf order eventType

def nextOrder (nowUtc : DateTime) (order : Stage7Order) (eventType : EventType)
    (fill : Option FillStep) : Stage7Order :=
  { order with
    status := nextStatus order eventType fill
    filledQty := order.filledQty + (fill.map FillStep.qty).getD 0
    avgFillPriceTry := match fill with
      | some fill => avgFillPrice order fill
      | none => order.avgFillPriceTry
    lastUpdate := ensureUtc nowUtc }

def transitionOnce (texts : Texts) (nowUtc : DateTime) (order : Stage7Order)
    (eventType : EventType) (payload : Payload) (existingEventTypes : List EventType) (seq : ℕ)
    (fill : Option FillStep) : Stage7Order × Option OrderEvent × ℕ :=
  let status := nextStatus order eventType fill
  if eventType ∈ existingEventTypes then (order, none, seq)
  else if status ≠ order.status ∧ status ∉ allowedTransitions order.status then (order, none, seq)
  else
    (nextOrder nowUtc order eventType fill,
      some (makeEvent texts nowUtc order (seq + 1) eventType payload), seq + 1)

/-- A transition whose event, if any, joins the batch's, and is remembered when asked to. -/
def Walk.transition (texts : Texts) (nowUtc : DateTime) (walk : Walk) (eventType : EventType)
    (payload : Payload) (fill : Option FillStep) (remember : Bool) : Walk :=
  match transitionOnce texts nowUtc walk.order eventType payload walk.seen walk.seq fill with
  | (order, some event, seq) =>
    { order := order
      seen := if remember then walk.seen ++ [eventType] else walk.seen
      seq := seq
      events := walk.events ++ [event] }
  | (order, none, seq) => { walk with order := order, seq := seq }

end Transitions

section MarketSimulator

structure Settings where
  stage7SimRejectProbBps : ℚ
  stage7SlippageBps : ℚ
  stage7RetryMaxAttempts : ℕ
  /-- The jittered delay of an attempt. -/
  retryDelayMs : ℕ → ℕ

/-- The value of the last characters of a client order id. -/
def hexSuffix (texts : Texts) (clientOrderId : String) (count : ℕ) : Except OmsError ℤ :=
  if clientOrderId = "" then .ok 0
  else
    let suffix := String.ofList (clientOrderId.toList.drop (clientOrderId.toList.length - count))
    match texts.hexValue suffix with
    | some value => .ok value
    | none => .error (.valueError suffix)

def shouldReject (texts : Texts) (settings : Settings) (intent : OrderIntent) :
    Except OmsError Bool :=
  if intent.qty.value ≤ 0 ∨ intent.priceTry.value ≤ 0 then .ok true
  else if settings.stage7SimRejectProbBps ≤ 0 then .ok false
  else do
    let value ← hexSuffix texts intent.clientOrderId 4
    .ok (value % 10000 < Grid.trunc settings.stage7SimRejectProbBps)

/-- The nearest multiple of 10⁻⁸, of two as near the even one. -/
def quantizeEighth (x : ℚ) : ℚ := Grid.halfEven (x * 10 ^ 8) / 10 ^ 8

def partialCandidate (texts : Texts) (clientOrderId : String) : Except OmsError Bool :=
  if clientOrderId = "" then .ok false
  else do
    let value ← hexSuffix texts clientOrderId 1
    .ok (value % 2 = 0)

def appliedPrice (settings : Settings) (markPricesTry : List (String × ℚ))
    (intent : OrderIntent) : ℚ :=
  let marks : Dict ℚ :=
    markPricesTry.foldl (fun marks entry => marks.insert (normalizeSymbol entry.1) entry.2) ∅
  let baseline := marks[normalizeSymbol intent.symbol]?.getD intent.priceTry.value
  let sign : ℚ := if intent.side.toUpper = "BUY" then 1 else -1
  baseline * (1 + sign * (settings.stage7SlippageBps / 10000))

def fillSlices (texts : Texts) (settings : Settings) (markPricesTry : List (String × ℚ))
    (intent : OrderIntent) : Except OmsError (List (ℚ × ℚ)) := do
  let applied := appliedPrice settings markPricesTry intent
  let qty := intent.qty.value
  let candidate ← partialCandidate texts intent.clientOrderId
  let first := max 0 (min (quantizeEighth (qty * (3 / 5))) qty)
  let second := qty - first
  if candidate ∧ 1 / 10000 < qty ∧ 0 < first ∧ 0 < second then
    .ok [(first, applied), (second, applied)]
  else .ok [(qty, applied)]

/-- The error the next token of a queue raises, if it raises any. -/
def tokenError (token : String) : Option SubmitError :=
  let token := (strip token).toUpper
  if token = "RATE_LIMIT" then some .rateLimitError
  else if token = "TIMEOUT" then some .networkTimeout
  else if token = "UNAVAILABLE" then some .temporaryUnavailable
  else if token = "NON_RETRYABLE" then some .nonRetryable
  else none

inductive SubmitResult where
  | accepted (attempts : List RetryAttempt)
  | gaveUp (attempts : List RetryAttempt)
  | raised (error : OmsError)

def SubmitResult.retried (attempt : RetryAttempt) : SubmitResult → SubmitResult
  | .accepted attempts => .accepted (attempt :: attempts)
  | .gaveUp attempts => .gaveUp (attempt :: attempts)
  | .raised error => .raised error

/-- The submit under backoff, with the attempts left, the number of the next one
and the tokens of the adapter; and the tokens it leaves. -/
def retryWithBackoff (retryDelayMs : ℕ → ℕ) : ℕ → ℕ → List String → SubmitResult × List String
  | 0, _, queue => (.raised .retryLoopExhausted, queue)
  | _ + 1, _, [] => (.accepted [], [])
  | left + 1, attempt, token :: queue =>
    match tokenError token with
    | none => (.accepted [], queue)
    | some error =>
      if !error.transient then (.raised .nonRetryable, queue)
      else if left = 0 then (.gaveUp [], queue)
      else
        let (result, rest) := retryWithBackoff retryDelayMs left (attempt + 1) queue
        (result.retried ⟨attempt, retryDelayMs attempt, error⟩, rest)

def submitAdapter (settings : Settings) (queue : List String) : SubmitResult × List String :=
  if settings.stage7RetryMaxAttempts < 1 then
    (.raised (.valueError "max_attempts must be >= 1"), queue)
  else retryWithBackoff settings.retryDelayMs settings.stage7RetryMaxAttempts 1 queue

end MarketSimulator

section Service

structure Limiter where
  /-- Whether a draw of the call is admitted. -/
  admits : ℕ → Bool
  /-- Microseconds until the next token, after a draw. -/
  availableIn : ℕ → ℤ

/-- What a call meets. -/
structure CallEnv where
  cycleId : String
  nowUtc : DateTime
  markPricesTry : List (String × ℚ)
  transientFailures : Dict (List String)
  settings : Settings
  limiter : Limiter

/-- The variables of the intent loop. Keys are stored as they are registered. -/
structure Batch where
  store : Store
  failures : Dict (List String)
  draws : ℕ := 0
  appliedOrders : List Stage7Order := []
  eventsToAppend : List OrderEvent := []
  error : Option OmsError := none

def Batch.finish (batch : Batch) (walk : Walk) : Batch :=
  { batch with
    appliedOrders := batch.appliedOrders ++ [walk.order]
    eventsToAppend := batch.eventsToAppend ++ walk.events }

def newOrder (texts : Texts) (env : CallEnv) (intent : OrderIntent) : Stage7Order where
  orderId := makeOrderId texts intent.clientOrderId
  clientOrderId := intent.clientOrderId
  cycleId := env.cycleId
  symbol := normalizeSymbol intent.symbol
  side := intent.side
  orderType := intent.orderType
  priceTry := intent.priceTry
  qty := intent.qty
  filledQty := 0
  avgFillPriceTry := none
  status := .planned
  lastUpdate := ensureUtc env.nowUtc
  intentHash := texts.intentHash intent

/-- An intent starts from the stored order, not from the batch's own results. -/
def startWalk (texts : Texts) (env : CallEnv) (store : Store) (intent : OrderIntent) : Walk :=
  let existingEvents := getStage7OrderEventsByClientId store intent.clientOrderId
  { order := (getStage7OrderByClientId store intent.clientOrderId).getD (newOrder texts env intent)
    seen := existingEvents.map OrderEvent.eventType
    seq := existingEvents.length }

def submitKey (clientOrderId : String) : String := "submit:" ++ clientOrderId

def invalidIntent (intent : OrderIntent) : Prop :=
  intent.qty.value ≤ 0 ∨ intent.priceTry.value ≤ 0 ∨ intent.notionalTry.value ≤ 0

instance (intent : OrderIntent) : Decidable (invalidIntent intent) := by
  unfold invalidIntent
  infer_instance

/-- The order of an accepted submit, up to its fills. -/
def executeWalk (texts : Texts) (env : CallEnv) (intent : OrderIntent) (walk : Walk) :
    Except OmsError Walk := do
  let requested := walk.transition texts env.nowUtc .submitRequested
    (.order walk.order.symbol walk.order.side) none true
  let acked := requested.transition texts env.nowUtc .acked
    (.order requested.order.symbol requested.order.side) none true
  let reject ← shouldReject texts env.settings intent
  if reject then
    .ok (acked.transition texts env.nowUtc .rejected (.reason "sim_reject" none) none false)
  else do
    let slices ← fillSlices texts env.settings env.markPricesTry intent
    let partly := match slices with
      | first :: _ :: _ =>
        acked.transition texts env.nowUtc .partialFill (.fill first.1 first.2)
          (some ⟨first.1, first.2, .partiallyFilled⟩) true
      | _ => acked
    let totalFillQty := (slices.map Prod.fst).sum
    let fillPrice := (slices.getLast?.map Prod.snd).getD 0
    .ok (partly.transition texts env.nowUtc .filled (.fill totalFillQty fillPrice)
      (some ⟨totalFillQty - partly.order.filledQty, fillPrice, .filled⟩) false)

/-- The registered submit: the adapter's answer and what follows from it. -/
def submitOrder (texts : Texts) (env : CallEnv) (batch : Batch) (intent : OrderIntent)
    (walk : Walk) : Batch :=
  let (result, queue) :=
    submitAdapter env.settings (batch.failures[intent.clientOrderId]?.getD [])
  let batch := { batch with failures := batch.failures.insert intent.clientOrderId queue }
  match result with
  | .raised error => { batch with error := some error }
  | .gaveUp attempts =>
    batch.finish (appendEvent texts env.nowUtc (appendRetries texts env.nowUtc walk attempts)
      .retryGiveup (.reason "transient_failure_exhausted" none))
  | .accepted attempts =>
    match executeWalk texts env intent (appendRetries texts env.nowUtc walk attempts) with
    | .ok walk => batch.finish walk
    | .error error => { batch with error := some error }

def registerAndSubmit (texts : Texts) (env : CallEnv) (batch : Batch) (intent : OrderIntent)
    (walk : Walk) : Batch :=
  let key := submitKey intent.clientOrderId
  match tryRegisterIdempotencyKey batch.store key (texts.intentHash intent) with
  | .conflict =>
    batch.finish ((appendEvent texts env.nowUtc walk .idempotencyConflict (.key key none)).transition
      texts env.nowUtc .rejected (.reason "idempotency_conflict" (some key)) none false)
  | .duplicate =>
    batch.finish (appendEvent texts env.nowUtc walk .duplicateIgnored (.key key none))
  | .registered store => submitOrder texts env { batch with store := store } intent walk

/-- One intent of the loop. After an exception the rest of the batch is not looked at. -/
def processIntent (texts : Texts) (env : CallEnv) (cancelRequests : List String) (batch : Batch)
    (intent : OrderIntent) : Batch :=
  if batch.error.isSome || intent.skipped then batch
  else
    let walk := startWalk texts env batch.store intent
    if invalidIntent intent then
      batch.finish (walk.transition texts env.nowUtc .rejected
        (.reason "invalid_price_or_qty" none) none false)
    else if intent.clientOrderId ∈ cancelRequests then
      batch.finish (walk.transition texts env.nowUtc .canceled
        (.reason "cancel_requested" none) none false)
    else if walk.order.status.terminal then
      batch.finish (appendEvent texts env.nowUtc walk .duplicateIgnored
        (.key (submitKey intent.clientOrderId) (some "terminal_order")))
    else
      let drawn := { batch with draws := batch.draws + 1 }
      if !env.limiter.admits batch.draws then
        drawn.finish (appendEvent texts env.nowUtc walk .throttled
          (.nextEligible ⟨env.nowUtc.micros + env.limiter.availableIn batch.draws, true⟩))
      else registerAndSubmit texts env drawn intent walk

def IntentBefore (a b : OrderIntent) : Prop := a.clientOrderId ≤ b.clientOrderId

instance : DecidableRel IntentBefore := fun a b => by unfold IntentBefore; infer_instance

def runBatch (texts : Texts) (env : CallEnv) (cancelRequests : List String) (store : Store)
    (intents : List OrderIntent) : Batch :=
  Runs.run (processIntent texts env cancelRequests) ⟨store, env.transientFailures, 0, [], [], none⟩
    (intents.insertionSort IntentBefore)

/-- The batch's orders and events in one transaction. A key registered on the
way stays registered when the batch raises. -/
def commitBatch (batch : Batch) :
    Except OmsError (List Stage7Order × List OrderEvent) × Store :=
  match batch.error with
  | some error => (.error error, batch.store)
  | none =>
    match upsertStage7Orders batch.store.stage7Orders batch.appliedOrders with
    | none => (.error .integrityError, batch.store)
    | some orders =>
      (.ok (batch.appliedOrders, batch.eventsToAppend), { batch.store with
        stage7Orders := orders
        stage7OrderEvents :=
          appendStage7OrderEvents batch.store.stage7OrderEvents batch.eventsToAppend })

def processIntents (texts : Texts) (env : CallEnv) (intents : List OrderIntent)
    (cancelRequests : List String) (store : Store) :
    Except OmsError (List Stage7Order × List OrderEvent) × Store :=
  commitBatch (runBatch texts env cancelRequests store intents)

def reconcileIntent (texts : Texts) (env : CallEnv) (order : Stage7Order) : OrderIntent where
  cycleId := env.cycleId
  symbol := order.symbol
  side := order.side
  orderType := order.orderType
  priceTry := order.priceTry
  qty := order.qty
  notionalTry :=
    ⟨order.priceTry.value * order.qty.value, texts.productText order.priceTry order.qty⟩
  clientOrderId := order.clientOrderId
  reason := "reconcile"
  constraintsApplied := []

/-- The calls a store meets. -/
inductive OmsCall where
  | processIntents (env : CallEnv) (intents : List OrderIntent) (cancelRequests : List String)
  | reconcileOpenOrders (env : CallEnv)

def OmsCall.env : OmsCall → CallEnv
  | .processIntents env _ _ => env
  | .reconcileOpenOrders env => env

def OmsCall.intents (texts : Texts) (store : Store) : OmsCall → List OrderIntent
  | .processIntents _ intents _ => intents
  | .reconcileOpenOrders env => (loadNonTerminalOrders store).map (reconcileIntent texts env)

def OmsCall.cancelRequests : OmsCall → List String
  | .processIntents _ _ cancelRequests => cancelRequests
  | .reconcileOpenOrders _ => []

def answerCall (texts : Texts) (store : Store) (call : OmsCall) :
    Except OmsError (List Stage7Order × List OrderEvent) × Store :=
  processIntents texts call.env (call.intents texts store) call.cancelRequests store

def stepCall (texts : Texts) (store : Store) (call : OmsCall) : Store :=
  (answerCall texts store call).2

end Service

end OmsService
