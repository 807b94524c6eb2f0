import Btcbot.ExchangeErrors
import Btcbot.Money

/-!
# Symbol rules and order sizing

Prices and quantities are rounded down to the symbol's grid, by tick or by
scale, before an order is validated. A candidate below the minimum notional is
refused unless an upgrade is allowed.
-/
namespace OrderSizing

open ExchangeErrors Grid

structure SymbolRules where
  pairSymbol : String
  priceScale : ℤ
  quantityScale : ℤ
  minTotal : Option ℚ := none
  minPrice : Option ℚ := none
  maxPrice : Option ℚ := none
  minQty : Option ℚ := none
  maxQty : Option ℚ := none
  tickSize : Option ℚ := none
  stepSize : Option ℚ := none
  deriving DecidableEq, Repr

/-- The step when there is a positive one, else ten to the minus scale. -/
def gridStep (step : Option ℚ) (scale : ℤ) : ℚ :=
  match step with
  | some s => if 0 < s then s else 10 ^ (-scale)
  | none => 10 ^ (-scale)

def quantizePrice (price : ℚ) (rules : SymbolRules) : Except Exc ℚ :=
  if price < 0 then .error (.valueError s!"price must be >= 0 for {rules.pairSymbol}")
  else .ok (snap trunc (gridStep rules.tickSize rules.priceScale) price)

def quantizeQuantity (qty : ℚ) (rules : SymbolRules) : Except Exc ℚ :=
  if qty < 0 then .error (.valueError s!"quantity must be >= 0 for {rules.pairSymbol}")
  else .ok (snap trunc (gridStep rules.stepSize rules.quantityScale) qty)

/-- The checks of an order, in the order they are made. -/
def validateOrder (price qty : ℚ) (rules : SymbolRules) : Except Exc Unit := do
  let invalid (text : String) : Except Exc Unit :=
    .error (.valueError s!"{text} for {rules.pairSymbol}")
  if price ≤ 0 then invalid "price must be > 0"
  if qty ≤ 0 then invalid "quantity must be > 0"
  let quantizedPrice ← quantizePrice price rules
  if quantizedPrice ≠ price then invalid "price scale violation"
  let quantizedQty ← quantizeQuantity qty rules
  if quantizedQty ≠ qty then invalid "quantity scale violation"
  if rules.minPrice.any (price < ·) then invalid "price below min_price"
  if rules.maxPrice.any (· < price) then invalid "price above max_price"
  if rules.minQty.any (qty < ·) then invalid "quantity below min_qty"
  if rules.maxQty.any (· < qty) then invalid "quantity above max_qty"
  if rules.minTotal.any (price * qty < ·) then invalid "total below min_total"

inductive OrderSizingStatus where
  | ok
  | belowMinNotional
  | invalidPrice
  | invalidQuantity
  | violatesRules
  deriving DecidableEq, Repr

structure OrderSizingResult where
  status : OrderSizingStatus
  quantizedPrice : ℚ
  quantizedQuantity : ℚ
  notionalTry : ℚ
  reason : Option String := none
  deriving DecidableEq, Repr

/-- Zero counts as no minimum given. -/
def minNotionalTry (rules : SymbolRules) (fallback : ℚ) : ℚ :=
  match rules.minTotal with
  | some t => if t = 0 then fallback else t
  | none => fallback

def sizeOrderFromNotional (desiredNotionalTry desiredPrice : ℚ) (rules : SymbolRules)
    (fallbackMinNotionalTry : ℚ) (allowMinNotionalUpgrade : Bool) :
    Except Exc OrderSizingResult :=
  let minNotional := minNotionalTry rules fallbackMinNotionalTry
  if desiredNotionalTry ≤ 0 then
    .ok ⟨.invalidQuantity, 0, 0, 0, some "desired_notional_non_positive"⟩
  else if desiredPrice ≤ 0 then
    .ok ⟨.invalidPrice, 0, 0, 0, some "desired_price_non_positive"⟩
  else do
    let quantizedPrice ← quantizePrice desiredPrice rules
    if desiredNotionalTry < minNotional ∧ allowMinNotionalUpgrade = false then
      .ok ⟨.belowMinNotional, quantizedPrice, 0, 0, some "desired_below_min_notional"⟩
    else if quantizedPrice ≤ 0 then
      .ok ⟨.invalidPrice, quantizedPrice, 0, 0, some "price_non_positive_after_quantize"⟩
    else
      let target := if allowMinNotionalUpgrade then max desiredNotionalTry minNotional
        else desiredNotionalTry
      let quantizedQuantity ← quantizeQuantity (target / quantizedPrice) rules
      let notional := quantizedPrice * quantizedQuantity
      if quantizedQuantity ≤ 0 then
        .ok ⟨.invalidQuantity, quantizedPrice, quantizedQuantity, notional,
          some "quantity_non_positive_after_quantize"⟩
      else if 0 < minNotional ∧ notional < minNotional then
        .ok ⟨.belowMinNotional, quantizedPrice, quantizedQuantity, notional,
          some "notional_below_min_notional_after_quantize"⟩
      else match validateOrder quantizedPrice quantizedQuantity rules with
        | .ok _ => .ok ⟨.ok, quantizedPrice, quantizedQuantity, notional, none⟩
        | .error _ => .ok ⟨.violatesRules, quantizedPrice, quantizedQuantity, notional,
            some "symbol_rule_validation_failed"⟩

/-- What is sized has a positive price and quantity. -/
theorem sizeOrder_positive {notional price fallback : ℚ} {rules : SymbolRules} {upgrade : Bool}
    {result : OrderSizingResult}
    (h : sizeOrderFromNotional notional price rules fallback upgrade = .ok result)
    (hok : result.status = .ok) : 0 < result.quantizedPrice ∧ 0 < result.quantizedQuantity := by
  have hother {status : OrderSizingStatus} {p q n : ℚ} {reason : Option String}
      (hstatus : status ≠ .ok)
      (heq : (Except.ok ⟨status, p, q, n, reason⟩ : Except Exc OrderSizingResult) = .ok result) :
      False := by
    obtain rfl := Except.ok.inj heq
    exact hstatus hok
  rw [sizeOrderFromNotional] at h
  dsimp only at h
  split at h
  · exact (hother (by decide) h).elim
  · split at h
    · exact (hother (by decide) h).elim
    · cases hprice : quantizePrice price rules with
      | error exc =>
        rw [hprice] at h
        cases h
      | ok quantizedPrice =>
        rw [hprice] at h
        dsimp only [bind, Except.bind] at h
        split at h
        · exact (hother (by decide) h).elim
        · split at h
          · exact (hother (by decide) h).elim
          · next hpos =>
            split at h
            · cases h
            · next quantizedQuantity _ =>
              split at h
              · exact (hother (by decide) h).elim
              · next hqty =>
                split at h
                · exact (hother (by decide) h).elim
                · split at h
                  · obtain rfl := Except.ok.inj h
                    exact ⟨not_le.mp hpos, not_le.mp hqty⟩
                  · exact (hother (by decide) h).elim

end OrderSizing
