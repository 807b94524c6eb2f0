import Btcbot.Money
import Btcbot.Runs
import Btcbot.Stage3Intent

/-!
# The stage 3 risk policy

Intents are taken in turn, put on the grid of their symbol and checked against a running
total of what is approved. The cash gate is closed when nothing is investable, the open
orders are those before the cycle, and the cap of an order cuts its quantity after the
minimum notional has been checked.
-/
namespace Stage3Risk

open PyData (Dict normalizeSymbol)
open Stage3Intent (Intent)
open Stage3Store (OrderSide)
open Grid (OnGrid)
open Money (MoneyMathPolicy roundPrice roundQty)

structure ExchangeRules where
  minNotional : ℚ
  priceTick : ℚ
  qtyStep : ℚ
  deriving DecidableEq, Repr

structure RiskPolicyContext where
  openOrdersBySymbol : Dict ℤ
  lastIntentTsBySymbolSide : String → OrderSide → Option ℤ
  investableTry : ℚ

inductive BlockReason where
  | maxOpenOrdersPerSymbol
  | cooldown
  | rulesUnavailable
  | nonPositiveAfterQuantize
  | minNotional
  | missingLimitPrice
  | cashReserveTarget
  | maxNotionalCapNonPositive
  | notionalCap
  deriving DecidableEq, Repr

def BlockReason.code : BlockReason → String
  | .maxOpenOrdersPerSymbol => "risk_block:max_open_orders_per_symbol"
  | .cooldown => "risk_block:cooldown"
  | .rulesUnavailable => "exchange_rules_unavailable_blocked"
  | .nonPositiveAfterQuantize => "risk_block:non_positive_after_quantize"
  | .minNotional => "risk_block:min_notional"
  | .missingLimitPrice => "risk_block:missing_limit_price"
  | .cashReserveTarget => "risk_block:cash_reserve_target"
  | .maxNotionalCapNonPositive => "risk_block:max_notional_cap_non_positive"
  | .notionalCap => "risk_block:notional_cap"

structure BlockedEvent where
  intentId : String
  symbol : String
  reason : BlockReason
  deriving DecidableEq, Repr

/-- The policy, the rules its provider knows of a symbol, and the clock readings, one for
each intent. Times are microseconds. -/
structure RiskPolicy where
  getRules : String → Option ExchangeRules
  maxOrdersPerCycle : ℤ
  maxOpenOrdersPerSymbol : ℤ
  cooldownSeconds : ℤ
  notionalCapTryPerCycle : ℚ
  maxNotionalPerOrderTry : ℚ
  now : ℕ → ℤ

/-- What is investable of the free cash, as the snapshot of the cycle tells the policy. -/
def investableOf (freeTry tryCashTarget : ℚ) : ℚ := max 0 (freeTry - tryCashTarget)

def moneyPolicy (rules : ExchangeRules) : MoneyMathPolicy where
  priceTick := rules.priceTick
  qtyStep := rules.qtyStep
  quotePrecision := 8
  feePrecision := 8
  rounding := Money.roundDown

def notionalOf (intent : Intent) : ℚ := intent.qty * intent.limitPrice.getD 0

section Evaluate

variable (policy : RiskPolicy) (context : RiskPolicyContext)

def openOrders (symbol : String) : ℤ := context.openOrdersBySymbol[symbol]?.getD 0

def coolingDown (index : ℕ) (intent : Intent) : Bool :=
  match context.lastIntentTsBySymbolSide (normalizeSymbol intent.symbol) intent.side with
  | some lastTs => decide (policy.now index - lastTs < policy.cooldownSeconds * 1000000)
  | none => false

def gateIntent (index : ℕ) (intent : Intent) : Except BlockReason Unit :=
  if openOrders context (normalizeSymbol intent.symbol) ≥ policy.maxOpenOrdersPerSymbol then
    .error .maxOpenOrdersPerSymbol
  else if coolingDown policy context index intent then .error .cooldown
  else .ok ()

/-- An intent without a limit price passes through, to be turned down afterwards. -/
def normalizeIntent (intent : Intent) : Except BlockReason (Intent × ExchangeRules) :=
  match intent.limitPrice with
  | none => .ok (intent, ⟨0, 0, 1 / 10 ^ 8⟩)
  | some limitPrice =>
    match policy.getRules intent.symbol with
    | none => .error .rulesUnavailable
    | some rules =>
      let price := roundPrice limitPrice (moneyPolicy rules)
      let qty := roundQty intent.qty (moneyPolicy rules)
      if price ≤ 0 ∨ qty ≤ 0 then .error .nonPositiveAfterQuantize
      else if price * qty < rules.minNotional then .error .minNotional
      else .ok ({ intent with qty := qty, limitPrice := some price }, rules)

/-- Only while something is investable; what is used counts SELLs too. -/
def gateCash (usedNotional : ℚ) (intent : Intent) : Except BlockReason Unit :=
  if intent.side = .buy ∧ context.investableTry > 0 ∧
      usedNotional + notionalOf intent > context.investableTry then .error .cashReserveTarget
  else .ok ()

def overOrderCap (intent : Intent) : Bool :=
  decide (policy.maxNotionalPerOrderTry > 0) &&
    decide (notionalOf intent > policy.maxNotionalPerOrderTry)

def cappedQty (rules : ExchangeRules) (price : ℚ) : ℚ :=
  roundQty (policy.maxNotionalPerOrderTry / price) (moneyPolicy rules)

def capOrder (rules : ExchangeRules) (price : ℚ) (intent : Intent) : Except BlockReason Intent :=
  if overOrderCap policy intent then
    if cappedQty policy rules price ≤ 0 then .error .maxNotionalCapNonPositive
    else .ok { intent with qty := cappedQty policy rules price }
  else .ok intent

def gateCap (usedNotional : ℚ) (intent : Intent) : Except BlockReason Unit :=
  if usedNotional + notionalOf intent > policy.notionalCapTryPerCycle then .error .notionalCap
  else .ok ()

/-- The intent as it is approved, or why it is not. -/
def judge (index : ℕ) (usedNotional : ℚ) (intent : Intent) : Except BlockReason Intent := do
  gateIntent policy context index intent
  let (normalized, rules) ← normalizeIntent policy intent
  match normalized.limitPrice with
  | none => .error .missingLimitPrice
  | some price => do
    gateCash context usedNotional normalized
    let capped ← capOrder policy rules price normalized
    gateCap policy usedNotional capped
    return capped

structure Loop where
  index : ℕ := 0
  usedNotional : ℚ := 0
  approved : List Intent := []
  lastBlockedEvents : List BlockedEvent := []
  deriving DecidableEq, Repr

def step (s : Loop) (intent : Intent) : Loop :=
  match judge policy context s.index s.usedNotional intent with
  | .ok approved =>
    { s with
      index := s.index + 1
      usedNotional := s.usedNotional + notionalOf approved
      approved := s.approved ++ [approved] }
  | .error reason =>
    { s with
      index := s.index + 1
      lastBlockedEvents :=
        s.lastBlockedEvents ++ [⟨intent.intentId, normalizeSymbol intent.symbol, reason⟩] }

/-- The first intents of the list; a negative bound leaves the last ones out. -/
def keptIntents (intents : List Intent) : List Intent :=
  if 0 ≤ policy.maxOrdersPerCycle then intents.take policy.maxOrdersPerCycle.toNat
  else intents.take (intents.length - policy.maxOrdersPerCycle.natAbs)

def evaluate (intents : List Intent) : Loop :=
  if intents = [] then {} else Runs.run (step policy context) {} (keptIntents policy intents)

theorem evaluate_eq_run (intents : List Intent) :
    evaluate policy context intents =
      Runs.run (step policy context) {} (keptIntents policy intents) := by
  rw [evaluate]
  split
  · next h => simp [h, keptIntents]
  · rfl

end Evaluate

section Judged

variable {policy : RiskPolicy} {context : RiskPolicyContext}

theorem notionalOf_some {intent : Intent} {price : ℚ} (h : intent.limitPrice = some price) :
    notionalOf intent = intent.qty * price := by
  rw [notionalOf, h]
  rfl

theorem gateIntent_ok {index : ℕ} {intent : Intent} (h : gateIntent policy context index intent = .ok ()) :
    openOrders context (normalizeSymbol intent.symbol) < policy.maxOpenOrdersPerSymbol := by
  rw [gateIntent] at h
  split at h
  · cases h
  · next hopen => exact not_le.mp hopen

theorem gateCash_ok {usedNotional : ℚ} {intent : Intent}
    (h : gateCash context usedNotional intent = .ok ()) (hbuy : intent.side = .buy)
    (hpos : 0 < context.investableTry) :
    usedNotional + notionalOf intent ≤ context.investableTry := by
  rw [gateCash] at h
  split at h
  · cases h
  · next hgate => exact not_lt.mp fun hover => hgate ⟨hbuy, hpos, hover⟩

theorem gateCap_ok {usedNotional : ℚ} {intent : Intent}
    (h : gateCap policy usedNotional intent = .ok ()) :
    usedNotional + notionalOf intent ≤ policy.notionalCapTryPerCycle := by
  rw [gateCap] at h
  split at h
  · cases h
  · next hcap => exact not_lt.mp hcap

/-- What is left of an intent that is put on the grid. -/
theorem normalizeIntent_ok {intent normalized : Intent} {rules : ExchangeRules} {price : ℚ}
    (h : normalizeIntent policy intent = .ok (normalized, rules))
    (hprice : normalized.limitPrice = some price) :
    ∃ limitPrice, intent.limitPrice = some limitPrice ∧
      policy.getRules intent.symbol = some rules ∧
      price = roundPrice limitPrice (moneyPolicy rules) ∧ 0 < price ∧
      0 < roundQty intent.qty (moneyPolicy rules) ∧
      rules.minNotional ≤ price * roundQty intent.qty (moneyPolicy rules) ∧
      normalized = { intent with
        qty := roundQty intent.qty (moneyPolicy rules), limitPrice := some price } := by
  rw [normalizeIntent] at h
  cases hlimit : intent.limitPrice with
  | none =>
    rw [hlimit] at h
    obtain ⟨rfl, -⟩ := Prod.mk.inj (Except.ok.inj h)
    rw [hlimit] at hprice
    cases hprice
  | some limitPrice =>
    rw [hlimit] at h
    cases hrules : policy.getRules intent.symbol with
    | none =>
      rw [hrules] at h
      cases h
    | some known =>
      rw [hrules] at h
      dsimp only at h
      split at h
      · cases h
      · next hpos =>
        split at h
        · cases h
        · next hmin =>
          obtain ⟨rfl, rfl⟩ := Prod.mk.inj (Except.ok.inj h)
          obtain rfl := Option.some.inj hprice
          obtain ⟨hprice, hqty⟩ := not_or.mp hpos
          exact ⟨limitPrice, rfl, rfl, rfl, not_le.mp hprice, not_le.mp hqty, not_lt.mp hmin, rfl⟩

/-- Quantities are rounded down. -/
theorem roundQty_le {qty : ℚ} (rules : ExchangeRules) (h : 0 ≤ qty) :
    roundQty qty (moneyPolicy rules) ≤ qty := by
  rw [roundQty, Money.quantizeToStep]
  split
  · exact le_rfl
  · next hstep => exact Grid.snap_trunc_le (not_le.mp hstep) h

/-- The cap of an order cuts the rounded quantity. -/
def CutByCap (policy : RiskPolicy) (rules : ExchangeRules) (limitPrice qty : ℚ) : Prop :=
  0 < policy.maxNotionalPerOrderTry ∧ policy.maxNotionalPerOrderTry <
    roundQty qty (moneyPolicy rules) * roundPrice limitPrice (moneyPolicy rules)

instance (policy : RiskPolicy) (rules : ExchangeRules) (limitPrice qty : ℚ) :
    Decidable (CutByCap policy rules limitPrice qty) := instDecidableAnd

/-- All that an approval says about an intent and the running total it met. -/
structure Approval (policy : RiskPolicy) (context : RiskPolicyContext) (usedNotional : ℚ)
    (intent approved : Intent) (rules : ExchangeRules) (limitPrice : ℚ) : Prop where
  limit : intent.limitPrice = some limitPrice
  known : policy.getRules intent.symbol = some rules
  symbol : approved.symbol = intent.symbol
  side : approved.side = intent.side
  price : approved.limitPrice = some (roundPrice limitPrice (moneyPolicy rules))
  pricePos : 0 < roundPrice limitPrice (moneyPolicy rules)
  qtyPos : 0 < approved.qty
  qtyUncut : ¬ CutByCap policy rules limitPrice intent.qty →
    approved.qty = roundQty intent.qty (moneyPolicy rules) ∧
      rules.minNotional ≤ roundPrice limitPrice (moneyPolicy rules) * approved.qty
  qtyCut : CutByCap policy rules limitPrice intent.qty →
    approved.qty = cappedQty policy rules (roundPrice limitPrice (moneyPolicy rules))
  slot : openOrders context (normalizeSymbol intent.symbol) < policy.maxOpenOrdersPerSymbol
  cash : intent.side = .buy → 0 < context.investableTry →
    usedNotional + roundQty intent.qty (moneyPolicy rules) *
      roundPrice limitPrice (moneyPolicy rules) ≤ context.investableTry
  cap : usedNotional + notionalOf approved ≤ policy.notionalCapTryPerCycle

theorem judge_ok {index : ℕ} {usedNotional : ℚ} {intent approved : Intent}
    (h : judge policy context index usedNotional intent = .ok approved) :
    ∃ rules limitPrice, Approval policy context usedNotional intent approved rules limitPrice := by
  rw [judge] at h
  obtain ⟨⟨⟩, hgate, h⟩ := Runs.bind_ok h
  obtain ⟨⟨normalized, rules⟩, hnormalized, h⟩ := Runs.bind_ok h
  dsimp only at h
  cases hprice : normalized.limitPrice with
  | none =>
    rw [hprice] at h
    cases h
  | some price =>
    rw [hprice] at h
    obtain ⟨⟨⟩, hcash, h⟩ := Runs.bind_ok h
    obtain ⟨capped, hcapped, h⟩ := Runs.bind_ok h
    obtain ⟨⟨⟩, hcap, h⟩ := Runs.bind_ok h
    obtain rfl := Except.ok.inj h
    obtain ⟨limitPrice, hlimit, hknown, rfl, hpos, hqty, hmin, rfl⟩ :=
      normalizeIntent_ok hnormalized hprice
    have hnotional := notionalOf_some hprice
    have hover : overOrderCap policy { intent with
        qty := roundQty intent.qty (moneyPolicy rules),
        limitPrice := some (roundPrice limitPrice (moneyPolicy rules)) } ↔
          CutByCap policy rules limitPrice intent.qty := by
      rw [overOrderCap, hnotional, CutByCap]
      simp
    have hspent (hbuy : intent.side = .buy) (hinvest : 0 < context.investableTry) :=
      gateCash_ok hcash hbuy hinvest
    rw [hnotional] at hspent
    refine ⟨rules, limitPrice, ?_⟩
    rw [capOrder] at hcapped
    split at hcapped
    · next hcut =>
      split at hcapped
      · cases hcapped
      · next hcappedPos =>
        obtain rfl := Except.ok.inj hcapped
        exact {
          limit := hlimit
          known := hknown
          symbol := rfl
          side := rfl
          price := rfl
          pricePos := hpos
          qtyPos := not_le.mp hcappedPos
          qtyUncut := fun huncut => absurd (hover.mp hcut) huncut
          qtyCut := fun _ => rfl
          slot := gateIntent_ok hgate
          cash := hspent
          cap := gateCap_ok hcap }
    · next huncut =>
      obtain rfl := Except.ok.inj hcapped
      exact {
        limit := hlimit
        known := hknown
        symbol := rfl
        side := rfl
        price := rfl
        pricePos := hpos
        qtyPos := hqty
        qtyUncut := fun _ => ⟨rfl, hmin⟩
        qtyCut := fun hcut => absurd (hover.mpr hcut) huncut
        slot := gateIntent_ok hgate
        cash := hspent
        cap := gateCap_ok hcap }

theorem Approval.notional_pos {usedNotional : ℚ} {intent approved : Intent}
    {rules : ExchangeRules} {limitPrice : ℚ}
    (h : Approval policy context usedNotional intent approved rules limitPrice) :
    0 < notionalOf approved := by
  rw [notionalOf_some h.price]
  exact mul_pos h.qtyPos h.pricePos

/-- An open cash gate lets a BUY through that fits what is investable. -/
theorem Approval.buy_le {usedNotional : ℚ} {intent approved : Intent}
    {rules : ExchangeRules} {limitPrice : ℚ}
    (h : Approval policy context usedNotional intent approved rules limitPrice)
    (hbuy : intent.side = .buy) (hinvest : 0 < context.investableTry) :
    usedNotional + notionalOf approved ≤ context.investableTry := by
  have hcash := h.cash hbuy hinvest
  have hsmaller : approved.qty ≤ roundQty intent.qty (moneyPolicy rules) := by
    by_cases hcut : CutByCap policy rules limitPrice intent.qty
    · have hcap : policy.maxNotionalPerOrderTry / roundPrice limitPrice (moneyPolicy rules) ≤
          roundQty intent.qty (moneyPolicy rules) :=
        (div_le_iff₀ h.pricePos).mpr hcut.2.le
      rw [h.qtyCut hcut]
      exact (roundQty_le rules (div_nonneg hcut.1.le h.pricePos.le)).trans hcap
    · exact (h.qtyUncut hcut).1.le
  rw [notionalOf_some h.price]
  have hscaled := mul_le_mul_of_nonneg_right hsmaller h.pricePos.le
  linarith only [hcash, hscaled]

end Judged

end Stage3Risk
