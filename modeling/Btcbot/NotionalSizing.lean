import Btcbot.OrderSizing
import Btcbot.Runs
import Mathlib.Order.Bounds.Basic

/-!
# What sizing from a notional finds

The size of an order is the largest quantity of the grid that the target pays for, and there
is one wherever some quantity of the grid is worth the minimum and no more than the target.
-/
namespace NotionalSizing

open ExchangeErrors Grid OrderSizing

section Validation

theorem gridStep_pos (step : Option ℚ) (scale : ℤ) : 0 < gridStep step scale := by
  have hscale : (0 : ℚ) < 10 ^ (-scale) := zpow_pos (by norm_num) _
  unfold gridStep
  split
  · exact step_pos hscale
  · exact hscale

abbrev priceTick (rules : SymbolRules) : ℚ := gridStep rules.tickSize rules.priceScale

abbrev qtyStep (rules : SymbolRules) : ℚ := gridStep rules.stepSize rules.quantityScale

/-- The limits of the rules besides their grid. -/
structure WithinBounds (price qty : ℚ) (rules : SymbolRules) : Prop where
  minPrice : ∀ least ∈ rules.minPrice, least ≤ price
  maxPrice : ∀ most ∈ rules.maxPrice, price ≤ most
  minQty : ∀ least ∈ rules.minQty, least ≤ qty
  maxQty : ∀ most ∈ rules.maxQty, qty ≤ most
  minTotal : ∀ least ∈ rules.minTotal, least ≤ price * qty

theorem not_any_iff (limit : Option ℚ) (p : ℚ → Prop) [DecidablePred p] :
    ¬ limit.any (fun value => p value) = true ↔ ∀ value ∈ limit, ¬ p value := by
  cases limit <;> simp

/-- What is on the grid already passes exactly within the bounds. -/
theorem validateOrder_ok_iff {price qty : ℚ} {rules : SymbolRules} (hprice : 0 < price)
    (hqty : 0 < qty) (htick : OnGrid (priceTick rules) price) (hstep : OnGrid (qtyStep rules) qty) :
    validateOrder price qty rules = .ok () ↔ WithinBounds price qty rules := by
  have hquantized : quantizePrice price rules = .ok price := by
    rw [quantizePrice, if_neg (not_lt.mpr hprice.le),
      isRounding_trunc.snap_of_onGrid (gridStep_pos _ _).ne' htick]
  have hquantity : quantizeQuantity qty rules = .ok qty := by
    rw [quantizeQuantity, if_neg (not_lt.mpr hqty.le),
      isRounding_trunc.snap_of_onGrid (gridStep_pos _ _).ne' hstep]
  unfold validateOrder
  simp only [hquantized, hquantity, not_le.mpr hprice, not_le.mpr hqty, if_false, bind, Except.bind,
    pure, Except.pure, ne_eq, not_true, Runs.guarded_ok, not_any_iff, not_lt, and_true]
  exact ⟨fun ⟨hminPrice, hmaxPrice, hminQty, hmaxQty, hminTotal⟩ =>
      ⟨hminPrice, hmaxPrice, hminQty, hmaxQty, hminTotal⟩,
    fun ⟨hminPrice, hmaxPrice, hminQty, hmaxQty, hminTotal⟩ =>
      ⟨hminPrice, hmaxPrice, hminQty, hmaxQty, hminTotal⟩⟩

end Validation

section Sizing

variable (desired price : ℚ) (rules : SymbolRules) (fallback : ℚ) (upgrade : Bool)

def gridPrice : ℚ := snap trunc (priceTick rules) price

theorem quantizePrice_grid (h : 0 ≤ price) :
    quantizePrice price rules = .ok (gridPrice price rules) :=
  if_neg (not_lt.mpr h)

/-- What an order may cost: the minimum, where it may be raised to it. -/
def targetNotional : ℚ :=
  if upgrade then max desired (minNotionalTry rules fallback) else desired

def gridQty : ℚ :=
  snap trunc (qtyStep rules)
    (targetNotional desired rules fallback upgrade / gridPrice price rules)

/-- Nothing stands against the order. -/
structure Accepted : Prop where
  allowed : ¬ (desired < minNotionalTry rules fallback ∧ upgrade = false)
  price_pos : 0 < gridPrice price rules
  qty_pos : 0 < gridQty desired price rules fallback upgrade
  min : 0 < minNotionalTry rules fallback → minNotionalTry rules fallback ≤
    gridPrice price rules * gridQty desired price rules fallback upgrade
  bounds : WithinBounds (gridPrice price rules) (gridQty desired price rules fallback upgrade) rules

variable {desired price rules fallback upgrade}

theorem targetNotional_pos (hdesired : 0 < desired) :
    0 < targetNotional desired rules fallback upgrade := by
  unfold targetNotional
  split
  · exact lt_max_of_lt_left hdesired
  · exact hdesired

theorem quantizeQuantity_grid (hdesired : 0 < desired) (hprice : 0 < gridPrice price rules) :
    quantizeQuantity (targetNotional desired rules fallback upgrade / gridPrice price rules) rules =
      .ok (gridQty desired price rules fallback upgrade) :=
  if_neg (not_lt.mpr (div_pos (targetNotional_pos hdesired) hprice).le)

/-- A size is found exactly if nothing stands against it, and it is the grid's. -/
theorem sizeOrder_cases (hdesired : 0 < desired) (hprice : 0 < price) :
    ∃ result, sizeOrderFromNotional desired price rules fallback upgrade = .ok result ∧
      (result.status = .ok ↔ Accepted desired price rules fallback upgrade) ∧
      (result.status = .ok → result.quantizedPrice = gridPrice price rules ∧
        result.quantizedQuantity = gridQty desired price rules fallback upgrade) := by
  unfold sizeOrderFromNotional
  simp only [if_neg (not_le.mpr hdesired), if_neg (not_le.mpr hprice),
    quantizePrice_grid price rules hprice.le, bind, Except.bind]
  split
  · next hbelow => exact ⟨_, rfl, iff_of_false nofun fun h => h.allowed hbelow, nofun⟩
  next hallowed =>
  split
  · next hzero => exact ⟨_, rfl, iff_of_false nofun fun h => hzero.not_gt h.price_pos, nofun⟩
  next hpos =>
  have hpos := not_le.mp hpos
  have hquantity := @quantizeQuantity_grid desired price rules fallback upgrade hdesired hpos
  unfold targetNotional at hquantity
  simp only [hquantity]
  split
  · next hzero => exact ⟨_, rfl, iff_of_false nofun fun h => hzero.not_gt h.qty_pos, nofun⟩
  next hqty =>
  have hqty := not_le.mp hqty
  split
  · next hbelow =>
    exact ⟨_, rfl, iff_of_false nofun fun h => hbelow.2.not_ge (h.min hbelow.1), nofun⟩
  next hmin =>
  have hvalid := validateOrder_ok_iff hpos hqty (snap_onGrid _ _ _) (snap_onGrid _ _ _)
  split
  · next hok =>
    exact ⟨_, rfl, iff_of_true rfl ⟨hallowed, hpos, hqty,
      fun h => not_lt.mp fun hlt => hmin ⟨h, hlt⟩, hvalid.mp hok⟩, fun _ => ⟨rfl, rfl⟩⟩
  · next herror =>
    refine ⟨_, rfl, iff_of_false nofun fun h => ?_, nofun⟩
    rw [hvalid.mpr h.bounds] at herror
    cases herror

/-- The quantity of the grid is the largest that the target pays for. -/
theorem gridQty_greatest (hdesired : 0 < desired) (hprice : 0 < gridPrice price rules) :
    IsGreatest {qty | OnGrid (qtyStep rules) qty ∧
      gridPrice price rules * qty ≤ targetNotional desired rules fallback upgrade}
      (gridQty desired price rules fallback upgrade) := by
  have hpaid := div_pos (@targetNotional_pos desired rules fallback upgrade hdesired) hprice
  have hstep := gridStep_pos rules.stepSize rules.quantityScale
  constructor
  · refine ⟨snap_onGrid _ _ _, ?_⟩
    rw [← le_div_iff₀' hprice]
    exact snap_trunc_le hstep hpaid.le
  · rintro qty ⟨hgrid, hcost⟩
    rw [gridQty, snap_trunc_eq hstep hpaid.le]
    exact le_snap_floor hstep hgrid ((le_div_iff₀' hprice).mpr hcost)

variable (rules) in
/-- The rules bound neither price nor quantity. -/
structure Unbounded : Prop where
  minPrice : rules.minPrice = none
  maxPrice : rules.maxPrice = none
  minQty : rules.minQty = none
  maxQty : rules.maxQty = none

/-- A minimum total that is given is the minimum, or asks for nothing. -/
theorem minTotal_le {worth : ℚ} (hworth : 0 < worth)
    (hmin : 0 < minNotionalTry rules fallback → minNotionalTry rules fallback ≤ worth) :
    ∀ least ∈ rules.minTotal, least ≤ worth := by
  intro least hleast
  unfold minNotionalTry at hmin
  rw [Option.mem_def.mp hleast] at hmin
  dsimp only at hmin
  split at hmin
  · next hzero => rw [hzero]; exact hworth.le
  · rcases le_or_gt least 0 with hneg | hpos
    · exact hneg.trans hworth.le
    · exact hmin hpos

/-- Without bounds an order is accepted exactly if some quantity of the grid is worth the
minimum and no more than the target. -/
theorem accepted_iff (hdesired : 0 < desired) (hfree : Unbounded rules) :
    Accepted desired price rules fallback upgrade ↔ 0 < gridPrice price rules ∧
      ∃ qty, 0 < qty ∧ OnGrid (qtyStep rules) qty ∧
        minNotionalTry rules fallback ≤ gridPrice price rules * qty ∧
        gridPrice price rules * qty ≤ targetNotional desired rules fallback upgrade := by
  constructor
  · intro h
    obtain ⟨⟨hgrid, hcost⟩, -⟩ :=
      @gridQty_greatest desired price rules fallback upgrade hdesired h.price_pos
    have hworth := mul_pos h.price_pos h.qty_pos
    refine ⟨h.price_pos, _, h.qty_pos, hgrid, ?_, hcost⟩
    rcases le_or_gt (minNotionalTry rules fallback) 0 with hneg | hpos
    · exact hneg.trans hworth.le
    · exact h.min hpos
  · rintro ⟨hpos, qty, hqty, hgrid, hmin, hcost⟩
    have hlargest : qty ≤ gridQty desired price rules fallback upgrade :=
      (gridQty_greatest hdesired hpos).2 ⟨hgrid, hcost⟩
    have hworth : gridPrice price rules * qty ≤
        gridPrice price rules * gridQty desired price rules fallback upgrade :=
      mul_le_mul_of_nonneg_left hlargest hpos.le
    have hleast := fun _ : 0 < minNotionalTry rules fallback => hmin.trans hworth
    refine ⟨?_, hpos, hqty.trans_le hlargest, hleast, ?_⟩
    · rintro ⟨hbelow, hupgrade⟩
      have htarget : targetNotional desired rules fallback upgrade = desired := by
        rw [targetNotional, hupgrade]
        rfl
      rw [htarget] at hcost
      exact absurd (hmin.trans hcost) (not_le.mpr hbelow)
    · exact ⟨by simp [hfree.minPrice], by simp [hfree.maxPrice], by simp [hfree.minQty],
        by simp [hfree.maxQty], minTotal_le (mul_pos hpos (hqty.trans_le hlargest)) hleast⟩

/-- A size that is found is valid and the largest the target pays for; without bounds it is
found wherever there is one. -/
theorem size_order_exact (desired price : ℚ) (rules : SymbolRules) (fallback : ℚ) (upgrade : Bool)
    (hdesired : 0 < desired) (hprice : 0 < price) :
    ∃ result, sizeOrderFromNotional desired price rules fallback upgrade = .ok result ∧
      (result.status = .ok →
        validateOrder result.quantizedPrice result.quantizedQuantity rules = .ok () ∧
        result.quantizedPrice = gridPrice price rules ∧
        IsGreatest {qty | OnGrid (qtyStep rules) qty ∧
          gridPrice price rules * qty ≤ targetNotional desired rules fallback upgrade}
          result.quantizedQuantity) ∧
      (Unbounded rules → (result.status = .ok ↔ 0 < gridPrice price rules ∧
        ∃ qty, 0 < qty ∧ OnGrid (qtyStep rules) qty ∧
          minNotionalTry rules fallback ≤ gridPrice price rules * qty ∧
          gridPrice price rules * qty ≤ targetNotional desired rules fallback upgrade)) := by
  obtain ⟨result, hresult, hok, hsized⟩ :=
    @sizeOrder_cases desired price rules fallback upgrade hdesired hprice
  refine ⟨result, hresult, fun h => ?_, fun hfree => hok.trans (accepted_iff hdesired hfree)⟩
  obtain ⟨hgridPrice, hgridQty⟩ := hsized h
  have haccepted := hok.mp h
  rw [hgridPrice, hgridQty]
  exact ⟨(validateOrder_ok_iff haccepted.price_pos haccepted.qty_pos (snap_onGrid _ _ _)
    (snap_onGrid _ _ _)).mpr haccepted.bounds, rfl,
    gridQty_greatest hdesired haccepted.price_pos⟩

/-- Prices by their scale, quantities by their step. -/
def mixedRules : SymbolRules where
  pairSymbol := "BTCTRY"
  priceScale := 1
  quantityScale := 4
  minTotal := some 10
  stepSize := some (1 / 8)

example : sizeOrderFromNotional 50 (1299 / 100) mixedRules 0 false =
    .ok ⟨.ok, 129 / 10, 31 / 8, 3999 / 80, none⟩ := by decide +kernel

theorem size_mixed_exact :
    (0 < (50 : ℚ) ∧ 0 < (1299 / 100 : ℚ)) ∧
    ∃ result, sizeOrderFromNotional 50 (1299 / 100) mixedRules 0 false = .ok result ∧
      (result.status = .ok →
        validateOrder result.quantizedPrice result.quantizedQuantity mixedRules = .ok () ∧
        result.quantizedPrice = gridPrice (1299 / 100) mixedRules ∧
        IsGreatest {qty | OnGrid (qtyStep mixedRules) qty ∧
          gridPrice (1299 / 100) mixedRules * qty ≤ targetNotional 50 mixedRules 0 false}
          result.quantizedQuantity) ∧
      (Unbounded mixedRules → (result.status = .ok ↔ 0 < gridPrice (1299 / 100) mixedRules ∧
        ∃ qty, 0 < qty ∧ OnGrid (qtyStep mixedRules) qty ∧
          minNotionalTry mixedRules 0 ≤ gridPrice (1299 / 100) mixedRules * qty ∧
          gridPrice (1299 / 100) mixedRules * qty ≤ targetNotional 50 mixedRules 0 false)) :=
  ⟨⟨by norm_num, by norm_num⟩,
    size_order_exact 50 (1299 / 100) mixedRules 0 false (by norm_num) (by norm_num)⟩

end Sizing

end NotionalSizing
