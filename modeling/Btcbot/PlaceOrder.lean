import Btcbot.DecimalFormat
import Btcbot.NotionalSizing
import Btcbot.Stage3Store

/-!
# Placing a limit order at the exchange client

Price and quantity are rounded to the grid of the symbol's rules before they are
written into the payload, and the order that is returned keeps them as they were given.
The payloads handed to the private request are kept in the order of the requests.
-/
namespace PlaceOrder

open PyData ExchangeErrors Grid DecimalText
open NotionalSizing (priceTick qtyStep WithinBounds gridStep_pos validateOrder_ok_iff)
open OrderSizing (gridStep validateOrder)
open Stage3Store (OrderSide OrderStatus)

section Rules

structure PairInfo where
  pairSymbol : String
  numeratorScale : ℤ
  denominatorScale : ℤ
  minTotalAmount : Option ScaledDecimal := none
  minPrice : Option ScaledDecimal := none
  maxPrice : Option ScaledDecimal := none
  minQuantity : Option ScaledDecimal := none
  maxQuantity : Option ScaledDecimal := none
  tickSize : Option ScaledDecimal := none
  stepSize : Option ScaledDecimal := none
  deriving DecidableEq, Repr

structure SymbolRules where
  pairSymbol : String
  priceScale : ℤ
  quantityScale : ℤ
  minTotal : Option ScaledDecimal
  minPrice : Option ScaledDecimal
  maxPrice : Option ScaledDecimal
  minQty : Option ScaledDecimal
  maxQty : Option ScaledDecimal
  tickSize : Option ScaledDecimal
  stepSize : Option ScaledDecimal
  deriving DecidableEq, Repr

def pairInfoToSymbolRules (pair : PairInfo) : SymbolRules where
  pairSymbol := pair.pairSymbol
  priceScale := pair.denominatorScale
  quantityScale := pair.numeratorScale
  minTotal := pair.minTotalAmount
  minPrice := pair.minPrice
  maxPrice := pair.maxPrice
  minQty := pair.minQuantity
  maxQty := pair.maxQuantity
  tickSize := pair.tickSize
  stepSize := pair.stepSize

/-- The rules by the values of their decimals. -/
def SymbolRules.values (rules : SymbolRules) : OrderSizing.SymbolRules where
  pairSymbol := rules.pairSymbol
  priceScale := rules.priceScale
  quantityScale := rules.quantityScale
  minTotal := rules.minTotal.map ScaledDecimal.value
  minPrice := rules.minPrice.map ScaledDecimal.value
  maxPrice := rules.maxPrice.map ScaledDecimal.value
  minQty := rules.minQty.map ScaledDecimal.value
  maxQty := rules.maxQty.map ScaledDecimal.value
  tickSize := rules.tickSize.map ScaledDecimal.value
  stepSize := rules.stepSize.map ScaledDecimal.value

/-- The step when there is a positive one, else a one in the last place of the scale. -/
def quantum (step : Option ScaledDecimal) (scale : ℤ) : ScaledDecimal :=
  match step with
  | some s => if 0 < s.value then s else ⟨false, 1, -scale⟩
  | none => ⟨false, 1, -scale⟩

/-- How many whole quanta there are, times the quantum. -/
def roundDown (quantum x : ScaledDecimal) : ScaledDecimal :=
  (ScaledDecimal.ofInt (trunc (x.value / quantum.value))).mul quantum

def quantizePrice (price : ScaledDecimal) (rules : SymbolRules) : Except Exc ScaledDecimal :=
  if price.value < 0 then .error (.valueError s!"price must be >= 0 for {rules.pairSymbol}")
  else .ok (roundDown (quantum rules.tickSize rules.priceScale) price)

def quantizeQuantity (qty : ScaledDecimal) (rules : SymbolRules) : Except Exc ScaledDecimal :=
  if qty.value < 0 then .error (.valueError s!"quantity must be >= 0 for {rules.pairSymbol}")
  else .ok (roundDown (quantum rules.stepSize rules.quantityScale) qty)

def preflightValidateAndQuantize (price qty : ScaledDecimal) (rules : SymbolRules) :
    Except Exc (ScaledDecimal × ScaledDecimal) := do
  if price.value ≤ 0 then .error (.valueError s!"price must be positive; observed={price.str}")
  if qty.value ≤ 0 then .error (.valueError s!"quantity must be positive; observed={qty.str}")
  let quantizedPrice ← quantizePrice price rules
  let quantizedQty ← quantizeQuantity qty rules
  validateOrder quantizedPrice.value quantizedQty.value rules.values
  if quantizedPrice.value ≤ 0 then
    .error (.valueError s!"price non-positive after quantize; observed={quantizedPrice.str}")
  if quantizedQty.value ≤ 0 then
    .error (.valueError s!"quantity non-positive after quantize; observed={quantizedQty.str}")
  .ok (quantizedPrice, quantizedQty)

end Rules

section Request

def fmtDecimal (value : ScaledDecimal) : String :=
  let normalized := if '.' ∈ value.fixed then rstrip '.' (rstrip '0' value.fixed) else value.fixed
  if normalized = [] then "0" else .ofList normalized

def btcturkPairSymbol (symbol : String) : String :=
  .ofList ((normalizeSymbol symbol).toList.filter (· ≠ '_'))

def sideValue : OrderSide → String
  | .buy => "buy"
  | .sell => "sell"

def sideOf (text : String) : Except Exc OrderSide :=
  if text = "buy" then .ok .buy
  else if text = "sell" then .ok .sell
  else .error (.valueError s!"'{text}' is not a valid OrderSide")

structure SubmitOrderRequest where
  pairSymbol : String
  price : ScaledDecimal
  quantity : ScaledDecimal
  side : OrderSide
  clientOrderId : String

structure Payload where
  pairSymbol : String
  price : String
  quantity : String
  orderMethod : String
  orderType : String
  newOrderClientId : String
  deriving DecidableEq, Repr

def buildSubmitOrderPayload (request : SubmitOrderRequest) : Payload where
  pairSymbol := btcturkPairSymbol request.pairSymbol
  price := fmtDecimal request.price
  quantity := fmtDecimal request.quantity
  orderMethod := "limit"
  orderType := sideValue request.side
  newOrderClientId := request.clientOrderId

/-- The `data` of a response: an object with the text of its id, or something else. -/
inductive ResponseData where
  | object (id : Option String)
  | other
  deriving DecidableEq, Repr

structure OrderAck where
  exchangeOrderId : String
  status : String
  deriving DecidableEq, Repr

structure Order where
  orderId : String
  clientOrderId : Option String
  symbol : String
  side : OrderSide
  price : ScaledDecimal
  quantity : ScaledDecimal
  status : OrderStatus
  createdAt : DateTime
  updatedAt : DateTime
  deriving DecidableEq, Repr

/-- What surrounds a call: the pairs or the error of the exchange info, the answer to a
payload, two readings of the clock. -/
structure Client where
  liveRulesRequireExchangeinfo : Bool
  getExchangeInfo : Except Exc (List PairInfo)
  privateRequest : Payload → Except Exc ResponseData
  createdAt : DateTime
  updatedAt : DateTime

abbrev ClientM := EStateM Exc (List Payload)

instance resultDecidableEq {ε σ α : Type} [DecidableEq ε] [DecidableEq σ] [DecidableEq α] :
    DecidableEq (EStateM.Result ε σ α)
  | .ok a s, .ok b t => decidable_of_iff (a = b ∧ s = t) (by rw [EStateM.Result.ok.injEq])
  | .error e s, .error f t => decidable_of_iff (e = f ∧ s = t) (by rw [EStateM.Result.error.injEq])
  | .ok _ _, .error _ _ => .isFalse fun h => by cases h
  | .error _ _, .ok _ _ => .isFalse fun h => by cases h

def raise {α : Type} : Except Exc α → ClientM α
  | .ok a => pure a
  | .error exc => throw exc

variable (client : Client)

def Client.exchangeInfo : Except Exc (List PairInfo) :=
  match client.getExchangeInfo with
  | .ok pairs => .ok pairs
  | .error exc => if exc = .crash then .error .crash else .ok []

def Client.resolveSymbolRules (symbol : String) : Except Exc SymbolRules := do
  let exchangeInfo ← client.exchangeInfo
  match exchangeInfo.find? fun pair => normalizeSymbol pair.pairSymbol = normalizeSymbol symbol with
  | some pair => .ok (pairInfoToSymbolRules pair)
  | none =>
    if client.liveRulesRequireExchangeinfo then
      .error (.valueError s!"exchangeinfo_missing_symbol_rules:{normalizeSymbol symbol}")
    else .ok (pairInfoToSymbolRules
      { pairSymbol := symbol
        numeratorScale := 8
        denominatorScale := 8
        minTotalAmount := some ⟨false, 10, 0⟩ })

/-- The payload counts as sent once it is handed over, whatever the answer. -/
def Client.post (payload : Payload) : ClientM ResponseData := do
  modify (· ++ [payload])
  raise (client.privateRequest payload)

def Client.submitLimitOrder (symbol side : String) (price qty : ScaledDecimal)
    (clientOrderId : String) : ClientM OrderAck := do
  let rules ← raise (client.resolveSymbolRules (normalizeSymbol symbol))
  let (quantizedPrice, quantizedQty) ← raise (preflightValidateAndQuantize price qty rules)
  let orderSide ← raise (sideOf side.toLower)
  let data ← client.post (buildSubmitOrderPayload
    ⟨btcturkPairSymbol (normalizeSymbol symbol), quantizedPrice, quantizedQty, orderSide,
      clientOrderId⟩)
  match data with
  | .object (some id) => pure ⟨id, "submitted"⟩
  | _ => throw (.exchangeError { message := "Submit order response missing order id" })

def Client.placeLimitOrder (symbol : String) (side : OrderSide) (price quantity : ScaledDecimal)
    (clientOrderId : Option String) : ClientM Order :=
  match clientOrderId with
  | none => throw (.valueError "client_order_id is required for BTCTurk place_limit_order")
  | some id => do
    let ack ← client.submitLimitOrder (normalizeSymbol symbol) (sideValue side) price quantity id
    pure
      { orderId := ack.exchangeOrderId
        clientOrderId := some id
        symbol := normalizeSymbol symbol
        side
        price
        quantity
        status := .open
        createdAt := client.createdAt
        updatedAt := client.updatedAt }

end Request

section Exactness

/-- The point is in a fixed text exactly if there is a fraction, and only then is it stripped. -/
theorem fmtDecimal_eq (d : ScaledDecimal) :
    fmtDecimal d = .ofList (d.sign ++ wholePart d.digits d.fixedPlace ++
      point (rstrip '0' (fractionPart d.digits d.fixedPlace))) := by
  have hfront := d.point_not_mem_front
  have hne : d.sign ++ wholePart d.digits d.fixedPlace ≠ [] :=
    List.append_ne_nil_of_right_ne_nil _ (wholePart_ne_nil d.digits_ne_nil _)
  have hstripped : (if '.' ∈ d.fixed then rstrip '.' (rstrip '0' d.fixed) else d.fixed) =
      d.sign ++ wholePart d.digits d.fixedPlace ++
        point (rstrip '0' (fractionPart d.digits d.fixedPlace)) := by
    by_cases hfraction : fractionPart d.digits d.fixedPlace = []
    · have hfixed : d.fixed = d.sign ++ wholePart d.digits d.fixedPlace := by
        rw [ScaledDecimal.fixed, hfraction, point, if_pos rfl, List.append_nil]
      rw [hfixed, if_neg hfront, hfraction]
      exact (List.append_nil _).symm
    · have hfixed : d.fixed = d.sign ++ wholePart d.digits d.fixedPlace ++
          '.' :: fractionPart d.digits d.fixedPlace := by
        rw [ScaledDecimal.fixed, point, if_neg hfraction]
      rw [hfixed, if_pos (List.mem_append_right _ List.mem_cons_self)]
      exact rstrip_point hfront (d.digits_digits.fractionPart _)
  unfold fmtDecimal
  rw [hstripped, if_neg fun h => hne (List.append_eq_nil_iff.mp h).1]

/-- No digit is lost in the text, whatever the exponent. -/
theorem readDecimal_fmtDecimal (d : ScaledDecimal) : readDecimal (fmtDecimal d) = some d.value := by
  rw [fmtDecimal_eq, d.read_stripped]

theorem quantum_value (step : Option ScaledDecimal) (scale : ℤ) :
    (quantum step scale).value = gridStep (step.map ScaledDecimal.value) scale := by
  have hunit : (ScaledDecimal.mk false 1 (-scale)).value = (10 : ℚ) ^ (-scale) := by
    simp [ScaledDecimal.value]
  cases step with
  | none => exact hunit
  | some s =>
    rw [Option.map_some, quantum, gridStep]
    split
    · rfl
    · exact hunit

theorem roundDown_value (quantum x : ScaledDecimal) :
    (roundDown quantum x).value = snap trunc quantum.value x.value := by
  rw [roundDown, ScaledDecimal.value_mul, ScaledDecimal.value_ofInt, snap]

/-- What the checks before the request let through. -/
structure Quantized (price qty quantizedPrice quantizedQty : ScaledDecimal)
    (rules : SymbolRules) : Prop where
  price : quantizedPrice.value = snap trunc (priceTick rules.values) price.value
  qty : quantizedQty.value = snap trunc (qtyStep rules.values) qty.value
  price_pos : 0 < quantizedPrice.value
  qty_pos : 0 < quantizedQty.value
  bounds : WithinBounds quantizedPrice.value quantizedQty.value rules.values

theorem preflight_ok {price qty quantizedPrice quantizedQty : ScaledDecimal} {rules : SymbolRules}
    (h : preflightValidateAndQuantize price qty rules = .ok (quantizedPrice, quantizedQty)) :
    Quantized price qty quantizedPrice quantizedQty rules := by
  have htick : (quantum rules.tickSize rules.priceScale).value = priceTick rules.values :=
    quantum_value _ _
  have hstep : (quantum rules.stepSize rules.quantityScale).value = qtyStep rules.values :=
    quantum_value _ _
  unfold preflightValidateAndQuantize at h
  obtain ⟨-, h⟩ := Runs.guarded_ok.mp h
  obtain ⟨-, h⟩ := Runs.guarded_ok.mp h
  obtain ⟨p, hp, h⟩ := Runs.bind_ok h
  obtain ⟨q, hq, h⟩ := Runs.bind_ok h
  obtain ⟨⟨⟩, hvalid, h⟩ := Runs.bind_ok h
  obtain ⟨hpos, h⟩ := Runs.guarded_ok.mp h
  obtain ⟨hqpos, h⟩ := Runs.guarded_ok.mp h
  cases h
  obtain ⟨-, hp⟩ := Runs.guarded_ok.mp hp
  obtain ⟨-, hq⟩ := Runs.guarded_ok.mp hq
  cases hp
  cases hq
  have hprice := not_le.mp hpos
  have hqty := not_le.mp hqpos
  rw [roundDown_value, htick] at hprice hvalid
  rw [roundDown_value, hstep] at hqty hvalid
  have hbounds :=
    (validateOrder_ok_iff hprice hqty (snap_onGrid _ _ _) (snap_onGrid _ _ _)).mp hvalid
  constructor <;> simp only [roundDown_value, htick, hstep] <;> assumption

/-- The texts of a payload read as numbers of the grid that the rules admit. -/
structure Transmitted (rules : OrderSizing.SymbolRules) (payload : Payload) (price qty : ℚ) :
    Prop where
  price_text : readDecimal payload.price = some price
  qty_text : readDecimal payload.quantity = some qty
  price_pos : 0 < price
  qty_pos : 0 < qty
  tick : OnGrid (priceTick rules) price
  step : OnGrid (qtyStep rules) qty
  bounds : WithinBounds price qty rules

/-- One payload is sent, and the order that is returned has its price and quantity. -/
def SentIsRecorded (rules : OrderSizing.SymbolRules) (log sent : List Payload) (order : Order) :
    Prop :=
  ∃ payload, sent = log ++ [payload] ∧
    Transmitted rules payload order.price.value order.quantity.value

variable {client : Client}

theorem raise_ok {α : Type} {result : Except Exc α} {log sent : List Payload} {a : α}
    (h : raise result log = .ok a sent) : result = .ok a ∧ log = sent := by
  cases result with
  | error exc => cases h
  | ok b =>
    cases h
    exact ⟨rfl, rfl⟩

theorem clientM_bind_ok {α β : Type} {m : ClientM α} {f : α → ClientM β} {log sent : List Payload}
    {b : β} (h : (m >>= f) log = .ok b sent) :
    ∃ a between, m log = .ok a between ∧ f a between = .ok b sent := by
  change EStateM.bind m f log = _ at h
  unfold EStateM.bind at h
  split at h
  · next a between hm => exact ⟨a, between, hm, h⟩
  · cases h

/-- A submission that is acknowledged sent one payload with the quantized numbers. -/
theorem submitLimitOrder_ok {symbol side : String} {price qty : ScaledDecimal}
    {clientOrderId : String} {log sent : List Payload} {ack : OrderAck}
    (h : client.submitLimitOrder symbol side price qty clientOrderId log = .ok ack sent) :
    ∃ rules payload quantizedPrice quantizedQty,
      client.resolveSymbolRules (normalizeSymbol symbol) = .ok rules ∧ sent = log ++ [payload] ∧
      payload.price = fmtDecimal quantizedPrice ∧ payload.quantity = fmtDecimal quantizedQty ∧
      Quantized price qty quantizedPrice quantizedQty rules := by
  obtain ⟨rules, s₁, hrules, h⟩ := clientM_bind_ok h
  obtain ⟨⟨quantizedPrice, quantizedQty⟩, s₂, hquantized, h⟩ := clientM_bind_ok h
  obtain ⟨orderSide, s₃, hside, h⟩ := clientM_bind_ok h
  obtain ⟨data, s₄, hpost, h⟩ := clientM_bind_ok h
  obtain ⟨hresolved, rfl⟩ := raise_ok hrules
  obtain ⟨hpreflight, rfl⟩ := raise_ok hquantized
  obtain ⟨-, rfl⟩ := raise_ok hside
  obtain ⟨⟨⟩, s₅, hsent, hpost⟩ := clientM_bind_ok hpost
  cases hsent
  obtain ⟨-, rfl⟩ := raise_ok hpost
  have hack : sent = log ++ [buildSubmitOrderPayload ⟨btcturkPairSymbol (normalizeSymbol symbol),
      quantizedPrice, quantizedQty, orderSide, clientOrderId⟩] := by
    split at h <;> cases h
    rfl
  exact ⟨rules, _, quantizedPrice, quantizedQty, hresolved, hack, rfl, rfl, preflight_ok hpreflight⟩

theorem Quantized.transmitted {price qty quantizedPrice quantizedQty : ScaledDecimal}
    {rules : SymbolRules} (h : Quantized price qty quantizedPrice quantizedQty rules)
    {payload : Payload} (hprice : payload.price = fmtDecimal quantizedPrice)
    (hqty : payload.quantity = fmtDecimal quantizedQty) :
    Transmitted rules.values payload quantizedPrice.value quantizedQty.value where
  price_text := by rw [hprice, readDecimal_fmtDecimal]
  qty_text := by rw [hqty, readDecimal_fmtDecimal]
  price_pos := h.price_pos
  qty_pos := h.qty_pos
  tick := by rw [h.price]; exact snap_onGrid _ _ _
  step := by rw [h.qty]; exact snap_onGrid _ _ _
  bounds := h.bounds

/-- An order that is returned has the numbers it was asked for, and one payload was sent with
the nearest ones of the grid below them. -/
theorem placeLimitOrder_ok {symbol : String} {side : OrderSide} {price quantity : ScaledDecimal}
    {clientOrderId : Option String} {log sent : List Payload} {order : Order}
    (h : client.placeLimitOrder symbol side price quantity clientOrderId log = .ok order sent) :
    ∃ rules payload, client.resolveSymbolRules (normalizeSymbol symbol) = .ok rules ∧
      sent = log ++ [payload] ∧ order.price = price ∧ order.quantity = quantity ∧
      Transmitted rules.values payload (snap trunc (priceTick rules.values) price.value)
        (snap trunc (qtyStep rules.values) quantity.value) := by
  unfold Client.placeLimitOrder at h
  split at h
  · cases h
  obtain ⟨ack, between, hsubmit, h⟩ := clientM_bind_ok h
  cases h
  obtain ⟨rules, payload, p, q, hrules, hsent, hprice, hqty, hquantized⟩ :=
    submitLimitOrder_ok hsubmit
  rw [normalizeSymbol_idem] at hrules
  refine ⟨rules, payload, hrules, hsent, rfl, rfl, ?_⟩
  rw [← hquantized.price, ← hquantized.qty]
  exact hquantized.transmitted hprice hqty

/-- What was sent is what is recorded exactly if price and quantity were given on the grid. -/
theorem sent_is_recorded_iff (client : Client) (symbol : String) (side : OrderSide)
    (price quantity : ScaledDecimal) (clientOrderId : Option String) (log : List Payload)
    {rules : SymbolRules} {order : Order} {sent : List Payload}
    (hrules : client.resolveSymbolRules (normalizeSymbol symbol) = .ok rules)
    (h : client.placeLimitOrder symbol side price quantity clientOrderId log = .ok order sent) :
    SentIsRecorded rules.values log sent order ↔
      OnGrid (priceTick rules.values) price.value ∧
        OnGrid (qtyStep rules.values) quantity.value := by
  obtain ⟨found, payload, hfound, hsent, rfl, rfl, htransmitted⟩ := placeLimitOrder_ok h
  cases hrules.symm.trans hfound
  constructor
  · rintro ⟨recorded, -, hrecorded⟩
    exact ⟨hrecorded.tick, hrecorded.step⟩
  · rintro ⟨htick, hstep⟩
    have hprice := isRounding_trunc.snap_of_onGrid (gridStep_pos _ _).ne' htick
    have hqty := isRounding_trunc.snap_of_onGrid (gridStep_pos _ _).ne' hstep
    rw [hprice, hqty] at htransmitted
    exact ⟨payload, hsent, htransmitted⟩

def tenthPair : PairInfo where
  pairSymbol := "BTCTRY"
  numeratorScale := 4
  denominatorScale := 2
  minTotalAmount := some ⟨false, 10, 0⟩
  tickSize := some ⟨false, 1, -1⟩
  stepSize := some ⟨false, 1, -2⟩

def tenthClient : Client where
  liveRulesRequireExchangeinfo := true
  getExchangeInfo := .ok [tenthPair]
  privateRequest _ := .ok (.object (some "42"))
  createdAt := ⟨0, true⟩
  updatedAt := ⟨0, true⟩

def tenthOrder (price : ScaledDecimal) : Order where
  orderId := "42"
  clientOrderId := some "first"
  symbol := "BTCTRY"
  side := .buy
  price
  quantity := ⟨false, 2, -1⟩
  status := .open
  createdAt := ⟨0, true⟩
  updatedAt := ⟨0, true⟩

def tenthPayload : Payload := ⟨"BTCTRY", "100.1", "0.2", "limit", "buy", "first"⟩

theorem tenth_is_recorded :
    SentIsRecorded (pairInfoToSymbolRules tenthPair).values [] [tenthPayload]
      (tenthOrder ⟨false, 1001, -1⟩) := by
  refine (sent_is_recorded_iff tenthClient "BTC_TRY" .buy ⟨false, 1001, -1⟩ ⟨false, 2, -1⟩
    (some "first") [] (by decide +kernel) (by decide +kernel)).mpr ⟨⟨1001, ?_⟩, 20, ?_⟩
  · norm_num [ScaledDecimal.value, priceTick, gridStep, SymbolRules.values, pairInfoToSymbolRules,
      tenthPair]
  · norm_num [ScaledDecimal.value, qtyStep, gridStep, SymbolRules.values, pairInfoToSymbolRules,
      tenthPair]

/-- The order that is returned has a price between two ticks, the payload the tick below it. -/
theorem price_recorded_off_tick :
    tenthClient.placeLimitOrder "BTC_TRY" .buy ⟨false, 10017, -2⟩ ⟨false, 2, -1⟩ (some "first") [] =
        .ok (tenthOrder ⟨false, 10017, -2⟩) [tenthPayload] ∧
      ¬ SentIsRecorded (pairInfoToSymbolRules tenthPair).values [] [tenthPayload]
        (tenthOrder ⟨false, 10017, -2⟩) := by
  refine ⟨by decide +kernel, ?_⟩
  rintro ⟨payload, hsent, hrecorded⟩
  obtain rfl := List.singleton_injective hsent
  have hread := hrecorded.price_text
  revert hread
  decide +kernel

end Exactness

end PlaceOrder
