import Btcbot.OrderSizing

/-!
# Orders and actions of the stage 3 store

The `orders` table has the order id as key and at most one row a client order
id; a save that meets the second index falls back to the row of that client
order id. The `actions` table gives each row the next id and holds a dedupe key
at most once. Times are microseconds, stored milliseconds are named so.
-/
namespace Stage3Store

open PyData ExchangeErrors

inductive OrderSide where
  | buy
  | sell
  deriving DecidableEq, Repr

inductive OrderStatus where
  | new
  | open
  | partial_
  | filled
  | canceled
  | rejected
  | unknown
  deriving DecidableEq, Repr

inductive ExchangeOrderStatus where
  | open
  | partial_
  | filled
  | canceled
  | rejected
  | unknown
  deriving DecidableEq, Repr

def mapExchangeStatus : ExchangeOrderStatus → OrderStatus
  | .open => .open
  | .partial_ => .partial_
  | .filled => .filled
  | .canceled => .canceled
  | .rejected => .rejected
  | .unknown => .unknown

structure Order where
  orderId : String
  clientOrderId : Option String
  symbol : String
  side : OrderSide
  price : ℚ
  quantity : ℚ
  status : OrderStatus
  createdAt : DateTime
  updatedAt : DateTime
  deriving DecidableEq, Repr

structure StoredOrder where
  orderId : String
  symbol : String
  clientOrderId : Option String
  side : OrderSide
  price : ℚ
  quantity : ℚ
  status : OrderStatus
  createdAt : ℤ
  updatedAt : ℤ
  lastSeenAt : Option ℤ
  reconciled : Bool
  exchangeStatusRaw : Option String
  idempotencyKey : Option String
  intentId : Option String
  unknownFirstSeenAt : Option ℤ := none
  unknownLastProbeAt : Option ℤ := none
  unknownNextProbeAt : Option ℤ := none
  unknownProbeAttempts : ℤ := 0
  unknownEscalatedAt : Option ℤ := none
  deriving DecidableEq, Repr

def toMs (micros : ℤ) : ℤ := micros / 1000

def toEpoch (micros : ℤ) : ℤ := micros / 1000000

section Orders

structure SaveOrderArgs where
  order : Order
  reconciled : Bool := false
  exchangeStatusRaw : Option String := none
  idempotencyKey : Option String := none
  intentId : Option String := none
  deriving DecidableEq, Repr

/-- The row a fresh insert writes. -/
def SaveOrderArgs.row (args : SaveOrderArgs) (now : ℤ) : StoredOrder where
  orderId := args.order.orderId
  symbol := normalizeSymbol args.order.symbol
  clientOrderId := args.order.clientOrderId
  side := args.order.side
  price := args.order.price
  quantity := args.order.quantity
  status := args.order.status
  createdAt := args.order.createdAt.micros
  updatedAt := args.order.updatedAt.micros
  lastSeenAt := some (toMs now)
  reconciled := args.reconciled
  exchangeStatusRaw := args.exchangeStatusRaw
  idempotencyKey := args.idempotencyKey
  intentId := args.intentId

/-- The columns an upsert of the order id replaces. -/
def SaveOrderArgs.overwrite (args : SaveOrderArgs) (now : ℤ) (row : StoredOrder) : StoredOrder :=
  { row with
    clientOrderId := args.order.clientOrderId
    status := args.order.status
    updatedAt := args.order.updatedAt.micros
    lastSeenAt := some (toMs now)
    reconciled := args.reconciled
    exchangeStatusRaw := args.exchangeStatusRaw
    idempotencyKey := args.idempotencyKey.or row.idempotencyKey
    intentId := args.intentId.or row.intentId }

/-- The columns the fallback replaces in the row of the client order id. -/
def SaveOrderArgs.rekey (args : SaveOrderArgs) (now : ℤ) (row : StoredOrder) : StoredOrder :=
  { args.overwrite now row with
    orderId := args.order.orderId
    symbol := normalizeSymbol args.order.symbol
    clientOrderId := row.clientOrderId
    side := args.order.side
    price := args.order.price
    quantity := args.order.quantity }

def getOrder (orders : List StoredOrder) (orderId : String) : Option StoredOrder :=
  orders.find? fun row => row.orderId == orderId

def updateOrder (orders : List StoredOrder) (orderId : String) (f : StoredOrder → StoredOrder) :
    List StoredOrder := orders.map fun row => if row.orderId = orderId then f row else row

/-- Another row holds the client order id. -/
def clientIdTaken (orders : List StoredOrder) (order : Order) : Bool :=
  order.clientOrderId.isSome &&
    orders.any fun row => row.clientOrderId == order.clientOrderId && row.orderId != order.orderId

def saveOrderFallback (now : ℤ) (orders : List StoredOrder) (args : SaveOrderArgs) :
    Except Exc (List StoredOrder) :=
  if args.order.clientOrderId = none ∨ args.order.clientOrderId = some "" then
    .error .integrityError
  else match orders.find? fun row => row.clientOrderId == args.order.clientOrderId with
    | none => .error .integrityError
    | some existing =>
      if existing.orderId ≠ args.order.orderId ∧
          (getOrder orders args.order.orderId).isSome = true then .error .integrityError
      else .ok (updateOrder orders existing.orderId (args.rekey now))

def saveOrder (now : ℤ) (orders : List StoredOrder) (args : SaveOrderArgs) :
    Except Exc (List StoredOrder) :=
  if clientIdTaken orders args.order then saveOrderFallback now orders args
  else if (getOrder orders args.order.orderId).isSome then
    .ok (updateOrder orders args.order.orderId (args.overwrite now))
  else .ok (orders ++ [args.row now])

structure StatusArgs where
  orderId : String
  status : OrderStatus
  exchangeStatusRaw : Option String := none
  reconciled : Option Bool := none
  lastSeenAt : Option ℤ := none
  deriving DecidableEq, Repr

/-- The probe columns are kept for an unknown order and cleared for any other. -/
def StatusArgs.apply (args : StatusArgs) (now : ℤ) (row : StoredOrder) : StoredOrder :=
  let isUnknown := args.status = .unknown
  { row with
    status := args.status
    updatedAt := now
    lastSeenAt := args.lastSeenAt.or row.lastSeenAt
    exchangeStatusRaw := args.exchangeStatusRaw.or row.exchangeStatusRaw
    reconciled := args.reconciled.getD row.reconciled
    unknownFirstSeenAt := if isUnknown then row.unknownFirstSeenAt.or (some (toMs now)) else none
    unknownLastProbeAt := if isUnknown then row.unknownLastProbeAt else none
    unknownNextProbeAt := if isUnknown then row.unknownNextProbeAt.or (some (toMs now)) else none
    unknownProbeAttempts := if isUnknown then row.unknownProbeAttempts else 0
    unknownEscalatedAt := if isUnknown then row.unknownEscalatedAt else none }

def updateOrderStatus (now : ℤ) (orders : List StoredOrder) (args : StatusArgs) :
    List StoredOrder := updateOrder orders args.orderId (args.apply now)

structure ProbeArgs where
  orderId : String
  lastProbeAt : ℤ
  nextProbeAt : ℤ
  escalate : Bool
  deriving DecidableEq, Repr

def ProbeArgs.apply (args : ProbeArgs) (row : StoredOrder) : StoredOrder :=
  { row with
    updatedAt := args.lastProbeAt * 1000
    unknownFirstSeenAt := row.unknownFirstSeenAt.or (some args.lastProbeAt)
    unknownLastProbeAt := some args.lastProbeAt
    unknownNextProbeAt := some args.nextProbeAt
    unknownProbeAttempts := row.unknownProbeAttempts + 1
    unknownEscalatedAt := if args.escalate then row.unknownEscalatedAt.or (some args.lastProbeAt)
      else row.unknownEscalatedAt }

def markUnknownProbeResult (orders : List StoredOrder) (args : ProbeArgs) : List StoredOrder :=
  updateOrder orders args.orderId args.apply

/-- New, open, partial and unknown orders, of the symbols given when there are any. -/
def findOpenOrUnknownOrders (orders : List StoredOrder) (symbols : List String) :
    List StoredOrder :=
  orders.filter fun row =>
    (row.status == .new || row.status == .open || row.status == .partial_ ||
      row.status == .unknown) &&
    (symbols.isEmpty || (symbols.map normalizeSymbol).contains row.symbol)

def listUnknownOrders (orders : List StoredOrder) : List StoredOrder :=
  (findOpenOrUnknownOrders orders []).filter fun row => row.status == .unknown

end Orders

section Actions

structure ActionRow where
  id : ℕ
  cycleId : String
  actionType : String
  payloadHash : String
  dedupeKey : Option String
  createdAtEpoch : ℤ
  clientOrderId : Option String := none
  orderId : Option String := none
  deriving DecidableEq, Repr

/-- Rows are never deleted, so the next id is one past their number. -/
def recordAction (now : ℤ) (actions : List ActionRow)
    (cycleId actionType payloadHash dedupeKey : String) : Option ℕ × List ActionRow :=
  if actions.any fun row => row.dedupeKey == some dedupeKey then (none, actions)
  else
    let id := actions.length + 1
    (some id, actions ++ [⟨id, cycleId, actionType, payloadHash, some dedupeKey, toEpoch now,
      none, none⟩])

def updateAction (actions : List ActionRow) (actionId : ℕ) (f : ActionRow → ActionRow) :
    List ActionRow := actions.map fun row => if row.id = actionId then f row else row

def attachActionMetadata (actions : List ActionRow) (actionId : ℕ)
    (clientOrderId orderId : Option String) : List ActionRow :=
  updateAction actions actionId fun row =>
    { row with clientOrderId := clientOrderId, orderId := orderId }

def clearActionDedupeKey (actions : List ActionRow) (actionId : ℕ) : List ActionRow :=
  updateAction actions actionId fun row => { row with dedupeKey := none }

def getActionByDedupeKey (actions : List ActionRow) (dedupeKey : String) : Option ActionRow :=
  actions.reverse.find? fun row => row.dedupeKey == some dedupeKey

end Actions

end Stage3Store
