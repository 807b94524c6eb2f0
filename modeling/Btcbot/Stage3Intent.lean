import Btcbot.Stage3Store

/-!
# Intents, snapshots and the identity of an order

What a strategy hands to the execution service, what the exchange reports of
its orders, and the two names an order goes by: the idempotency key of the
intent and the client order id sent to the exchange.
-/
namespace Stage3Intent

open PyData ExchangeErrors OrderSizing Stage3Store

/-- Text functions of the standard library that the keys are built with: SHA-256 in hexadecimal,
fixed point with eight places, plain decimal notation, and the passage through a float. -/
structure TextOps where
  sha256 : String → String
  fixed8 : ℚ → String
  plain : ℚ → String
  viaFloat : ℚ → ℚ

def takeText (n : ℕ) (text : String) : String := String.ofList (text.toList.take n)

def startsWithText (front text : String) : Bool := front.toList.isPrefixOf text.toList

def containsText (part text : String) : Bool := decide (part.toList <:+: text.toList)

section Intents

structure OrderIntent where
  symbol : String
  side : OrderSide
  price : ℚ
  quantity : ℚ
  notional : ℚ
  cycleId : String
  strategyId : String := "default"
  intentSalt : String := ""
  deriving DecidableEq, Repr

structure Intent where
  intentId : String
  symbol : String
  side : OrderSide
  qty : ℚ
  limitPrice : Option ℚ
  idempotencyKey : String
  deriving DecidableEq, Repr

/-- What a caller passes: stage 3 intents or order intents. -/
inductive RawIntent where
  | intent (intent : Intent)
  | orderIntent (intent : OrderIntent)
  deriving DecidableEq, Repr

def sideValue : OrderSide → String
  | .buy => "buy"
  | .sell => "sell"

variable (text : TextOps)

def toOrderIntent (intent : Intent) (cycleId : String) : Except Exc OrderIntent :=
  match intent.limitPrice with
  | none => .error (.valueError "Intent.limit_price is required for Stage 2 limit execution")
  | some limitPrice => .ok {
      symbol := intent.symbol
      side := intent.side
      price := text.viaFloat limitPrice
      quantity := text.viaFloat intent.qty
      notional := text.viaFloat (intent.qty * limitPrice)
      cycleId := cycleId }

def normalizeIntent (cycleId : Option String) : RawIntent → Except Exc (OrderIntent × Option Intent)
  | .orderIntent intent => .ok (intent, none)
  | .intent raw =>
    match cycleId with
    | none => .error (.valueError "cycle_id is required when executing Stage 3 Intent inputs")
    | some cycleId => do
      let intent ← toOrderIntent text raw cycleId
      .ok (intent, some raw)

/-- The letters and digits of a symbol, in upper case. -/
def cleanSymbol (n : ℕ) (symbol : String) : String :=
  let clean := takeText n (String.ofList (symbol.toList.filter Char.isAlphanum)).toUpper
  if clean = "" then "SYMB" else clean

def makeIntentId (intent : OrderIntent) : String :=
  takeText 16 (text.sha256 ("|".intercalate [intent.strategyId, cleanSymbol 12 intent.symbol,
    sideValue intent.side, text.fixed8 intent.price, text.fixed8 intent.quantity,
    text.fixed8 intent.notional, intent.intentSalt]))

def makeClientOrderId (intent : OrderIntent) : String :=
  let sideShort := if intent.side = .buy then "b" else "s"
  takeText 40 ("-".intercalate ["meva2", cleanSymbol 8 intent.symbol, sideShort,
    makeIntentId text intent, "a0"])

def stablePlaceIntentHash (intent : OrderIntent) : String :=
  "place:" ++ text.sha256 ("|".intercalate [normalizeSymbol intent.symbol, sideValue intent.side,
    text.plain intent.price, text.plain intent.quantity])

def placeIdempotencyKey (intent : OrderIntent) (raw : Option Intent) : String :=
  match raw with
  | some raw =>
    if raw.idempotencyKey ≠ "" then raw.idempotencyKey else stablePlaceIntentHash text intent
  | none => stablePlaceIntentHash text intent

/-- A quantity that does not quantize leaves the price quantized. -/
def canonicalPlaceFields (rules : Option SymbolRules) (intent : OrderIntent) : ℚ × ℚ :=
  match rules with
  | none => (intent.price, intent.quantity)
  | some rules =>
    match quantizePrice intent.price rules with
    | .error _ => (intent.price, intent.quantity)
    | .ok price =>
      match quantizeQuantity intent.quantity rules with
      | .error _ => (price, intent.quantity)
      | .ok quantity => (price, quantity)

def placeHash (rules : Option SymbolRules) (intent : OrderIntent) : String :=
  let (price, quantity) := canonicalPlaceFields rules intent
  text.sha256 ("|".intercalate [normalizeSymbol intent.symbol, sideValue intent.side,
    text.plain price, text.plain quantity])

def cancelHash (orderId : String) : String := text.sha256 orderId

end Intents

section Snapshots

structure OrderSnapshot where
  orderId : String
  clientOrderId : Option String
  pairSymbol : String
  side : Option OrderSide
  price : ℚ
  quantity : ℚ
  status : ExchangeOrderStatus
  timestamp : ℤ
  updateTime : Option ℤ
  statusRaw : Option String
  deriving DecidableEq, Repr

structure OpenOrderItem where
  id : ℤ
  price : ℚ
  quantity : ℚ
  pairSymbol : String
  method : String
  orderClientId : Option String
  time : ℤ
  updateTime : Option ℤ
  status : String
  deriving DecidableEq, Repr

def OrderSnapshot.seenAt (snapshot : OrderSnapshot) : ℤ :=
  match snapshot.updateTime with
  | some t => if t = 0 then snapshot.timestamp else t
  | none => snapshot.timestamp

def methodSide (method : String) : Option OrderSide :=
  let method := (strip method).toLower
  if method = "buy" then some .buy
  else if method = "sell" then some .sell
  else none

def openItemToSnapshot (item : OpenOrderItem) : OrderSnapshot where
  orderId := toString item.id
  clientOrderId := item.orderClientId
  pairSymbol := item.pairSymbol
  side := methodSide item.method
  price := item.price
  quantity := item.quantity
  status := .open
  timestamp := item.time
  updateTime := item.updateTime
  statusRaw := some item.status

def openItemsToSnapshots (items : List OpenOrderItem) : List OrderSnapshot :=
  items.map openItemToSnapshot

def matchOrderByClientId (snapshots : List OrderSnapshot) (clientOrderId : String) :
    Option OrderSnapshot :=
  snapshots.find? fun snapshot => snapshot.clientOrderId == some clientOrderId

def matchExistingOrder (orderId : String) (clientOrderId : Option String)
    (snapshots : List OrderSnapshot) : Option OrderSnapshot :=
  (snapshots.find? fun snapshot => snapshot.orderId == orderId).or
    (clientOrderId.bind (matchOrderByClientId snapshots))

structure MatchFields where
  pairSymbol : String
  side : OrderSide
  price : ℚ
  quantity : ℚ
  tolerance : ℚ
  startMs : ℤ
  endMs : ℤ
  deriving DecidableEq, Repr

def fallbackMatchByFields (snapshots : List OrderSnapshot) (fields : MatchFields) :
    Option OrderSnapshot :=
  snapshots.find? fun snapshot =>
    let observed := snapshot.updateTime.getD snapshot.timestamp
    normalizeSymbol snapshot.pairSymbol == normalizeSymbol fields.pairSymbol &&
      snapshot.side.all (· == fields.side) &&
      decide (|snapshot.price - fields.price| ≤ fields.tolerance) &&
      decide (|snapshot.quantity - fields.quantity| ≤ fields.tolerance) &&
      decide (fields.startMs ≤ observed ∧ observed ≤ fields.endMs)

inductive Ack where
  | submitOrderResult (orderId : String)
  | other (orderId exchangeOrderId : Option String)
  deriving DecidableEq, Repr

def mapExchangeAckToSubmitResult : Ack → Except Exc String
  | .submitOrderResult orderId => .ok orderId
  | .other orderId exchangeOrderId =>
    match (orderId.filter (· ≠ "")).or (exchangeOrderId.filter (· ≠ "")) with
    | some orderId => .ok orderId
    | none => .error (.valueError "submit ack missing order_id")

inductive ReconcileStatus where
  | confirmed
  | notFound
  | unknown
  deriving DecidableEq, Repr

structure ReconcileOutcome where
  status : ReconcileStatus
  orderId : Option String
  reason : String
  deriving DecidableEq, Repr

end Snapshots

section Errors

/-- The status code a rate limit shows, by the attribute of the error or of its response. -/
def isExchange429Error : Exc → Bool
  | .httpStatusError statusCode _ => statusCode == 429
  | .exchangeError error => error.statusCode == some 429
  | _ => false

def errorCodeText : Option ErrorCode → String
  | none => "None"
  | some (.number n) => toString n
  | some (.text s) => s

def isKnownMinNotionalReject : Exc → Bool
  | .exchangeError error =>
    let code := errorCodeText error.errorCode
    let message := error.errorMessage.getD ""
    let joined := (" ".intercalate [code, message, error.responseBody.getD "",
      error.message]).toUpper
    (code == "1123" && message.toUpper == "FAILED_MIN_TOTAL_AMOUNT") ||
      (containsText "1123" joined && containsText "FAILED_MIN_TOTAL_AMOUNT" joined)
  | _ => false

/-- What `str` gives of an exception. -/
def excText : Exc → String
  | .timeoutException message => message
  | .networkError message => message
  | .httpStatusError _ message => message
  | .exchangeError error => error.message
  | .breakerOpenError message => message
  | .transportError message => message
  | .timeoutError message => message
  | .valueError message => message
  | .runtimeError message => message
  | .integrityError => "UNIQUE constraint failed"
  | .idempotencyConflict conflict =>
    let (actionType, key) := conflict.rowKey
    s!"idempotency key conflict for {actionType}:{key}: existing={conflict.existing} incoming={conflict.incoming}"
  | .submitBlockedDueToUnknown message => message
  | .liveTradingNotArmed message _ => message
  | .crash => ""

/-- The body of an exchange error when it has one, else the text of the exception. -/
def failureText (exc : Exc) : String :=
  let body := match exc with
    | .exchangeError error => takeText 2048 (error.responseBody.getD "")
    | _ => ""
  takeText 2048 (if body = "" then excText exc else body)

end Errors

example : isKnownMinNotionalReject (.exchangeError
    { message := "failed", errorMessage := some "1123 failed_min_total_amount" }) = true := by
  decide +kernel

end Stage3Intent
