import Btcbot.AggressivePlan

/-!
# The order of a sized action

The price of an order is the mark rounded down to the tick, and divides the minimum notional
where a BUY is raised to it. A mark under one tick leaves a price of zero.
-/
namespace ActionToOrder

open PyData AllocationService DecisionPipeline
open AggressivePlan (Placeable stepOr_pos)
open Grid (OnGrid snap)
open Stage4Execute (ExchangeRules quantizePrice quantizeQty gridStep)

section Rules

variable (pair : PairInfo)

theorem tickSize_pos : 0 < (buildExchangeRules pair).tickSize := stepOr_pos _ _

theorem stepSize_pos : 0 < (buildExchangeRules pair).stepSize := stepOr_pos _ _

theorem quantizePrice_eq (price : ℚ) : quantizePrice price (buildExchangeRules pair) =
    snap (fun x => ⌊x⌋) (buildExchangeRules pair).tickSize price := by
  rw [quantizePrice, gridStep, if_pos (tickSize_pos pair)]
  rfl

theorem quantizeQty_eq (qty : ℚ) : quantizeQty qty (buildExchangeRules pair) =
    snap (fun x => ⌊x⌋) (buildExchangeRules pair).stepSize qty := by
  rw [quantizeQty, gridStep, if_pos (stepSize_pos pair)]
  rfl

theorem quantizePrice_pos_iff (price : ℚ) : 0 < quantizePrice price (buildExchangeRules pair) ↔
    (buildExchangeRules pair).tickSize ≤ price := by
  rw [quantizePrice_eq]
  exact Grid.snap_floor_pos_iff (tickSize_pos pair)

theorem quantizeQty_pos_iff (qty : ℚ) : 0 < quantizeQty qty (buildExchangeRules pair) ↔
    (buildExchangeRules pair).stepSize ≤ qty := by
  rw [quantizeQty_eq]
  exact Grid.snap_floor_pos_iff (stepSize_pos pair)

theorem quantizePrice_onGrid (price : ℚ) :
    OnGrid (buildExchangeRules pair).tickSize (quantizePrice price (buildExchangeRules pair)) := by
  rw [quantizePrice_eq]
  exact Grid.snap_onGrid _ _ _

theorem quantizeQty_onGrid (qty : ℚ) :
    OnGrid (buildExchangeRules pair).stepSize (quantizeQty qty (buildExchangeRules pair)) := by
  rw [quantizeQty_eq]
  exact Grid.snap_onGrid _ _ _

theorem raisedQty_onGrid (price : ℚ) :
    OnGrid (buildExchangeRules pair).stepSize (raisedQty price (buildExchangeRules pair)) :=
  Grid.snap_onGrid _ _ _

/-- A raised quantity is the least on the grid that meets the minimum. -/
theorem raisedQty_le {price other : ℚ} (hprice : 0 < price)
    (hgrid : OnGrid (buildExchangeRules pair).stepSize other)
    (hmin : (buildExchangeRules pair).minNotionalTry ≤ price * other) :
    raisedQty price (buildExchangeRules pair) ≤ other :=
  Grid.snap_ceil_le (stepSize_pos pair) hgrid ((div_le_iff₀' hprice).mpr hmin)

end Rules

section Sizing

/-- An order the exchange takes; a raised quantity is the least that meets the minimum, and
a SELL has no more than its action. -/
structure WellSized (action : SizedAction) (rules : ExchangeRules) (order : Order) : Prop
    extends Placeable rules order.price order.qty where
  least : action.side = .buy → quantizeQty action.qty rules < order.qty →
    ∀ other, OnGrid rules.stepSize other → rules.minNotionalTry ≤ order.price * other →
      order.qty ≤ other
  sell : action.side = .sell → order.qty ≤ action.qty

/-- The action is dropped or its order is well sized: nothing is raised. -/
def SizesSafely (action : SizedAction) (liveMode : Bool) (mark : ℚ) (pair : PairInfo)
    (createdAt : DateTime) : Prop :=
  ∃ result, sizedActionToOrder action liveMode (some mark) pair createdAt = .ok result ∧
    ∀ order, result = .ok order → WellSized action (buildExchangeRules pair) order

variable {action : SizedAction} {liveMode : Bool} {mark : ℚ} {pair : PairInfo}
  {createdAt : DateTime}

/-- Nothing is asked of an action that is dropped. -/
theorem wellSized_dropped (rules : ExchangeRules) {reason : String} (order : Order)
    (h : (.error reason : Except String Order) = .ok order) : WellSized action rules order := by
  cases h

theorem wellSized_floor (hprice : 0 < quantizePrice mark (buildExchangeRules pair))
    (hqty : 0 < quantizeQty action.qty (buildExchangeRules pair))
    (hmin : (buildExchangeRules pair).minNotionalTry ≤
      quantizePrice mark (buildExchangeRules pair) *
        quantizeQty action.qty (buildExchangeRules pair)) :
    WellSized action (buildExchangeRules pair)
      (orderOf action liveMode (quantizePrice mark (buildExchangeRules pair))
        (quantizeQty action.qty (buildExchangeRules pair)) createdAt) where
  tick := quantizePrice_onGrid pair mark
  step := quantizeQty_onGrid pair action.qty
  price_pos := hprice
  qty_pos := hqty
  min := hmin
  least _ hraised := absurd hraised (lt_irrefl _)
  sell _ := CycleCap.quantizeQty_le _ _

theorem wellSized_raised (hprice : 0 < quantizePrice mark (buildExchangeRules pair))
    (hbuy : action.side = .buy)
    (hqty : 0 < raisedQty (quantizePrice mark (buildExchangeRules pair)) (buildExchangeRules pair))
    (hmin : (buildExchangeRules pair).minNotionalTry ≤
      quantizePrice mark (buildExchangeRules pair) *
        raisedQty (quantizePrice mark (buildExchangeRules pair)) (buildExchangeRules pair)) :
    WellSized action (buildExchangeRules pair)
      (orderOf action liveMode (quantizePrice mark (buildExchangeRules pair))
        (raisedQty (quantizePrice mark (buildExchangeRules pair)) (buildExchangeRules pair))
        createdAt) where
  tick := quantizePrice_onGrid pair mark
  step := raisedQty_onGrid pair _
  price_pos := hprice
  qty_pos := hqty
  min := hmin
  least _ _ _ hgrid hworth := raisedQty_le pair hprice hgrid hworth
  sell hsell := by
    rw [hbuy] at hsell
    cases hsell

/-- At a positive price every action is dropped or well sized. -/
theorem sizes_of_priced (hmark : 0 < mark) (hqty : 0 < action.qty)
    (hprice : 0 < quantizePrice mark (buildExchangeRules pair)) :
    SizesSafely action liveMode mark pair createdAt := by
  unfold SizesSafely sizedActionToOrder
  simp only [if_neg (not_le.mpr hmark), if_neg (not_le.mpr hqty), if_neg hprice.ne']
  split
  · exact ⟨_, rfl, wellSized_dropped _⟩
  next hfloor =>
  have hfloor := not_le.mp hfloor
  split
  · next hvalid =>
    refine ⟨_, rfl, fun order horder => ?_⟩
    obtain rfl := Except.ok.inj horder
    exact wellSized_floor hprice hfloor (of_decide_eq_true hvalid)
  split
  · exact ⟨_, rfl, wellSized_dropped _⟩
  next hbuy =>
  split
  · exact ⟨_, rfl, wellSized_dropped _⟩
  next hraised =>
  obtain ⟨hover, hvalid⟩ := not_or.mp (fun h => hraised (Bool.or_eq_true_iff.mpr h))
  have hover := not_le.mp (fun h => hover (decide_eq_true h))
  have hvalid : validateMinNotional (quantizePrice mark (buildExchangeRules pair))
      (raisedQty (quantizePrice mark (buildExchangeRules pair)) (buildExchangeRules pair))
      (buildExchangeRules pair) = true := by simpa using hvalid
  refine ⟨_, rfl, fun order horder => ?_⟩
  obtain rfl := Except.ok.inj horder
  exact wellSized_raised hprice (not_not.mp hbuy) (hfloor.trans hover) (of_decide_eq_true hvalid)

/-- At the price zero an action must be dropped before its price is used. -/
theorem sizes_unpriced_iff (hmark : 0 < mark) (hqty : 0 < action.qty)
    (hprice : quantizePrice mark (buildExchangeRules pair) = 0) :
    SizesSafely action liveMode mark pair createdAt ↔
      quantizeQty action.qty (buildExchangeRules pair) ≤ 0 ∨
        action.side = .sell ∧ 0 < (buildExchangeRules pair).minNotionalTry := by
  unfold SizesSafely sizedActionToOrder
  simp only [if_neg (not_le.mpr hmark), if_neg (not_le.mpr hqty), hprice, validateMinNotional,
    zero_mul, if_true]
  split
  · next hzero => exact iff_of_true ⟨_, rfl, wellSized_dropped _⟩ (.inl hzero)
  next hfloor =>
  split
  · next hvalid =>
    have hfree := not_lt.mpr (of_decide_eq_true hvalid)
    refine iff_of_false ?_ (not_or.mpr ⟨hfloor, fun h => hfree h.2⟩)
    rintro ⟨_, heq, hwell⟩
    obtain rfl := Except.ok.inj heq
    exact absurd (hwell _ rfl).price_pos (lt_irrefl _)
  next hinvalid =>
  have hmin := not_le.mp fun h => hinvalid (decide_eq_true h)
  split
  · next hsell =>
    refine iff_of_true ⟨_, rfl, wellSized_dropped _⟩ (.inr ⟨?_, hmin⟩)
    cases hside : action.side with
    | buy => exact absurd hside hsell
    | sell => rfl
  · next hbuy =>
    refine iff_of_false ?_ (not_or.mpr ⟨hfloor, fun h => ?_⟩)
    · rintro ⟨_, heq, -⟩
      cases heq
    · rw [not_not.mp hbuy] at h
      cases h.1

/-- Sizing is safe exactly if the mark is a tick or more, or the action is dropped before its
price is used: its quantity is under one step, or it is a SELL and there is a minimum. -/
theorem sizes_safely_iff (action : SizedAction) (liveMode : Bool) (mark : ℚ) (pair : PairInfo)
    (createdAt : DateTime) (hmark : 0 < mark) (hqty : 0 < action.qty) :
    SizesSafely action liveMode mark pair createdAt ↔
      (buildExchangeRules pair).tickSize ≤ mark ∨
        action.qty < (buildExchangeRules pair).stepSize ∨
        action.side = .sell ∧ 0 < (buildExchangeRules pair).minNotionalTry := by
  by_cases htick : (buildExchangeRules pair).tickSize ≤ mark
  · exact iff_of_true (sizes_of_priced hmark hqty ((quantizePrice_pos_iff pair mark).mpr htick))
      (.inl htick)
  · have hprice : quantizePrice mark (buildExchangeRules pair) = 0 :=
      le_antisymm (not_lt.mp fun hpos => htick ((quantizePrice_pos_iff pair mark).mp hpos))
        (CycleCap.quantizePrice_nonneg _ hmark.le)
    rw [sizes_unpriced_iff hmark hqty hprice, or_iff_right htick, ← not_le (b := action.qty),
      ← quantizeQty_pos_iff, not_lt]

/-- A pair with whole ticks, and a minimum notional of ten. -/
def coarsePair : PairInfo where
  pairSymbol := "SHIBTRY"
  numeratorScale := 0
  denominatorScale := 0
  minTotalAmount := some 10

def buyOne : SizedAction where
  symbol := "SHIBTRY"
  side := .buy
  notionalTry := 1 / 2
  qty := 1
  rationale := ""
  strategyId := ""
  intentIndex := 0

/-- A mark of a half divides the minimum by zero. -/
theorem half_tick_divides_by_zero :
    ¬ ∀ (action : SizedAction) (liveMode : Bool) (mark : ℚ) (pair : PairInfo)
        (createdAt : DateTime), 0 < mark → 0 < action.qty →
        0 ≤ (buildExchangeRules pair).minNotionalTry →
      SizesSafely action liveMode mark pair createdAt := by
  intro h
  obtain ⟨result, hresult, -⟩ := h buyOne false (1 / 2) coarsePair ⟨0, true⟩ (by norm_num)
    (by decide +kernel) (by decide +kernel)
  have hraises : sizedActionToOrder buyOne false (some (1 / 2)) coarsePair ⟨0, true⟩ =
      .error .divisionByZero := by decide +kernel
  rw [hraises] at hresult
  cases hresult

theorem whole_tick_sizes :
    (0 < (20 : ℚ) ∧ 0 < buyOne.qty) ∧ SizesSafely buyOne false 20 coarsePair ⟨0, true⟩ := by
  refine ⟨by decide +kernel, ?_⟩
  exact (sizes_safely_iff buyOne false 20 coarsePair ⟨0, true⟩ (by norm_num)
    (by decide +kernel)).mpr (.inl (by decide +kernel))

end Sizing

end ActionToOrder
