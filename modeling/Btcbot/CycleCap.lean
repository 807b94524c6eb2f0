import Btcbot.DecisionPipeline
import Btcbot.Grid
import Mathlib.Algebra.BigOperators.Ring.List

/-!
# The notional cap of a cycle

What the allocation hands out stays within the cycle's cap, and an order on the grid is
worth no more than its action was given. Past that, three ways lead over the cap: a cap
scaled to zero is no cap, the shares of the scored symbols are cut from a budget that no
cap has met, and an order under the exchange's minimum is raised after the cap was spent.
-/
namespace CycleCap

open PyData AllocationService DecisionPipeline
open Stage4Execute (ExchangeRules quantizePrice quantizeQty gridStep quantumOf)

section Quantized

variable (rules : ExchangeRules)

theorem gridStep_pos (step : ℚ) (precision : ℤ) : 0 < gridStep step precision :=
  Grid.step_pos (zpow_pos (by norm_num) _)

theorem quantizePrice_le (price : ℚ) : quantizePrice price rules ≤ price :=
  Grid.snap_floor_le (gridStep_pos _ _) price

theorem quantizeQty_le (qty : ℚ) : quantizeQty qty rules ≤ qty :=
  Grid.snap_floor_le (gridStep_pos _ _) qty

theorem quantizePrice_nonneg {price : ℚ} (h : 0 ≤ price) : 0 ≤ quantizePrice price rules :=
  Grid.isRounding_floor.snap_nonneg (gridStep_pos _ _) h

end Quantized

section Sizing

theorem resolveFeeBufferRatio_nonneg (feeBufferRatio feeBufferBps : ℚ) :
    0 ≤ resolveFeeBufferRatio feeBufferRatio feeBufferBps := by
  unfold resolveFeeBufferRatio
  split
  · next hratio => exact hratio.le
  · exact div_nonneg (le_max_right _ _) (by norm_num)

variable {knobs : AllocationKnobs}

theorem tightest_le_requested (requested : ℚ) (limits : Limits) :
    tightest requested limits ≤ requested := by
  induction limits generalizing requested with
  | nil => exact le_refl _
  | cons limit limits ih =>
    obtain ⟨reason, bound⟩ := limit
    cases bound with
    | none => exact ih requested
    | some bound => exact (ih _).trans (min_le_left requested bound)

theorem tightest_le {limits : Limits} {reason : ReasonCode} {bound : ℚ}
    (h : (reason, some bound) ∈ limits) (requested : ℚ) : tightest requested limits ≤ bound := by
  induction limits generalizing requested with
  | nil => cases h
  | cons limit limits ih =>
    rcases List.mem_cons.mp h with rfl | hin
    · exact (tightest_le_requested _ limits).trans (min_le_right _ _)
    · exact ih hin _

/-- A notional is no less than the minimum, and within every limit but the intent's own. -/
theorem sizeNotional_ok {requested allocated : ℚ} {limits : Limits} {reason : ReasonCode}
    (h : sizeNotional knobs requested limits = .ok (allocated, reason)) :
    knobs.minOrderNotionalTry ≤ allocated ∧
      ∀ cap bound, (cap, some bound) ∈ limits → cap ≠ .maxIntentCap → allocated ≤ bound := by
  simp only [sizeNotional] at h
  split at h
  · split at h
    · next hlimits =>
      obtain ⟨rfl, -⟩ := Prod.mk.inj (Except.ok.inj h)
      refine ⟨le_refl _, fun cap bound hin hcap => ?_⟩
      have hlimit := List.all_eq_true.mp hlimits _ hin
      simpa [hcap, isBelow] using hlimit
    · cases h
  · next hmin =>
    obtain ⟨rfl, -⟩ := Prod.mk.inj (Except.ok.inj h)
    exact ⟨not_lt.mp hmin, fun cap bound hin _ => tightest_le hin requested⟩

/-- The price of an intent that has limits, and the limits of its side. -/
theorem limitsOf_cases {positions : Mapping PositionSummary} {prices : Mapping ℚ}
    {deployBudget cycleNotional requested markPrice : ℚ} {symbol : String} {side : Side}
    {limits : Limits}
    (h : limitsOf knobs positions prices deployBudget cycleNotional symbol side requested =
      .ok (markPrice, limits)) :
    prices.get symbol = some markPrice ∧ 0 < markPrice ∧
      let cycleCap := applyOptionalCap requested cycleNotional knobs.maxTotalNotionalTryPerCycle
      let heldQty := ((positions.get symbol).map PositionSummary.qty).getD 0
      (side = .buy ∧ limits = [(.cashTarget, some deployBudget),
        (.maxPositionExposureCap, maxNewPositionNotional
          (if 0 < heldQty then heldQty * markPrice else 0) knobs.maxPositionTryPerSymbol),
        (.cycleNotionalCap, some cycleCap)] ++ intentCap knobs) ∨
      (side = .sell ∧ 0 < heldQty ∧ limits = [(.positionValueCap, some (heldQty * markPrice)),
        (.cycleNotionalCap, some cycleCap)] ++ intentCap knobs) := by
  unfold limitsOf at h
  cases side with
  | buy =>
    cases hprice : prices.get symbol with
    | none =>
      simp only [hprice] at h
      cases h
    | some mark =>
      simp only [hprice] at h
      split at h
      · cases h
      · next hmark =>
        obtain ⟨rfl, rfl⟩ := Prod.mk.inj (Except.ok.inj h)
        exact ⟨rfl, not_le.mp hmark, .inl ⟨rfl, rfl⟩⟩
  | sell =>
    simp only at h
    split at h
    · cases h
    · next hheld =>
      cases hprice : prices.get symbol with
      | none =>
        simp only [hprice] at h
        cases h
      | some mark =>
        simp only [hprice] at h
        split at h
        · cases h
        · next hmark =>
          obtain ⟨rfl, rfl⟩ := Prod.mk.inj (Except.ok.inj h)
          exact ⟨rfl, not_le.mp hmark, .inr ⟨rfl, not_le.mp hheld, rfl⟩⟩

end Sizing

section Allocated

variable {knobs : AllocationKnobs} {positions : Mapping PositionSummary} {prices : Mapping ℚ}

/-- An intent that is sized has a positive request, a price and limits. -/
theorem sizeIntent_cases {progress : Progress} {intent : Intent} {allocated markPrice : ℚ}
    {reason : ReasonCode}
    (h : sizeIntent knobs positions prices progress intent = .ok (allocated, markPrice, reason)) :
    ∃ requested limits, intent.targetNotionalTry = some requested ∧ 0 < requested ∧
      limitsOf knobs positions prices progress.remainingDeployBudgetTry
        progress.remainingCycleNotional (canonicalSymbol intent.symbol) intent.side requested =
        .ok (markPrice, limits) ∧
      sizeNotional knobs requested limits = .ok (allocated, reason) := by
  unfold sizeIntent at h
  split at h
  · cases h
  · split at h
    · cases h
    · next requested hrequested =>
      split at h
      · cases h
      · next hpositive =>
        split at h
        · cases h
        · next mark limits hlimits =>
          split at h
          · cases h
          · next hsized =>
            obtain ⟨rfl, hrest⟩ := Prod.mk.inj (Except.ok.inj h)
            obtain ⟨rfl, rfl⟩ := Prod.mk.inj hrest
            exact ⟨requested, limits, hrequested, not_le.mp hpositive, hlimits, hsized⟩

theorem sizeIntent_ok {progress : Progress} {intent : Intent} {allocated markPrice : ℚ}
    {reason : ReasonCode}
    (h : sizeIntent knobs positions prices progress intent = .ok (allocated, markPrice, reason)) :
    knobs.minOrderNotionalTry ≤ allocated ∧
      prices.get (canonicalSymbol intent.symbol) = some markPrice ∧ 0 < markPrice ∧
      (0 < knobs.maxTotalNotionalTryPerCycle →
        allocated ≤ max progress.remainingCycleNotional 0) := by
  obtain ⟨requested, limits, -, -, hlimits, hsized⟩ := sizeIntent_cases h
  obtain ⟨hprice, hmark, hsides⟩ := limitsOf_cases hlimits
  obtain ⟨hmin, hbelow⟩ := sizeNotional_ok hsized
  have hcap : (.cycleNotionalCap, some (applyOptionalCap requested
      progress.remainingCycleNotional knobs.maxTotalNotionalTryPerCycle)) ∈ limits := by
    rcases hsides with ⟨-, rfl⟩ | ⟨-, -, rfl⟩ <;> simp
  refine ⟨hmin, hprice, hmark, fun hpos => ?_⟩
  have hle := hbelow _ _ hcap (by decide)
  rwa [applyOptionalCap, if_neg (not_le.mpr hpos)] at hle

/-- What an intent does to the actions and to what is left of the cycle's cap. -/
theorem allocateIntent_cases (knobs : AllocationKnobs) (positions : Mapping PositionSummary)
    (prices : Mapping ℚ) (progress : Progress) (intent : Intent) :
    ((allocateIntent knobs positions prices progress intent).actions = progress.actions ∧
      (allocateIntent knobs positions prices progress intent).remainingCycleNotional =
        progress.remainingCycleNotional) ∨
    ∃ allocated markPrice reason,
      sizeIntent knobs positions prices progress intent = .ok (allocated, markPrice, reason) ∧
      (allocateIntent knobs positions prices progress intent).actions =
        progress.actions ++ [actionOf progress intent allocated markPrice reason] ∧
      (allocateIntent knobs positions prices progress intent).remainingCycleNotional =
        if 0 < knobs.maxTotalNotionalTryPerCycle then progress.remainingCycleNotional - allocated
        else progress.remainingCycleNotional := by
  unfold allocateIntent
  cases hsized : sizeIntent knobs positions prices progress intent with
  | error reason => exact .inl ⟨rfl, rfl⟩
  | ok sized => exact .inr ⟨sized.1, sized.2.1, sized.2.2, rfl, rfl, rfl⟩

/-- An action of no less than the minimum, its quantity what the notional buys at the mark. -/
structure Sized (knobs : AllocationKnobs) (prices : Mapping ℚ) (action : SizedAction) : Prop where
  min : knobs.minOrderNotionalTry ≤ action.notionalTry
  qty : ∃ markPrice, prices.get action.symbol = some markPrice ∧ 0 < markPrice ∧
    action.qty * markPrice = action.notionalTry

/-- What was handed out, and what is left, make up the cycle's cap. -/
structure Spent (knobs : AllocationKnobs) (prices : Mapping ℚ) (progress : Progress) : Prop where
  sized : ∀ action ∈ progress.actions, Sized knobs prices action
  spent : 0 < knobs.maxTotalNotionalTryPerCycle →
    (progress.actions.map SizedAction.notionalTry).sum + progress.remainingCycleNotional =
      knobs.maxTotalNotionalTryPerCycle
  left : 0 < knobs.maxTotalNotionalTryPerCycle → 0 ≤ progress.remainingCycleNotional

theorem spent_allocateIntent (progress : Progress) (intent : Intent)
    (hs : Spent knobs prices progress) :
    Spent knobs prices (allocateIntent knobs positions prices progress intent) := by
  obtain ⟨hactions, hleft⟩ | ⟨allocated, markPrice, reason, hsized, hactions, hleft⟩ :=
    allocateIntent_cases knobs positions prices progress intent
  · constructor
    · rw [hactions]
      exact hs.sized
    · rw [hactions, hleft]
      exact hs.spent
    · rw [hleft]
      exact hs.left
  · obtain ⟨hmin, hprice, hmark, hcap⟩ := sizeIntent_ok hsized
    constructor
    · intro action hin
      rw [hactions] at hin
      rcases List.mem_append.mp hin with hin | hin
      · exact hs.sized action hin
      · obtain rfl := List.mem_singleton.mp hin
        exact ⟨hmin, markPrice, hprice, hmark, div_mul_cancel₀ _ hmark.ne'⟩
    · intro hpos
      have hspent := hs.spent hpos
      rw [hactions, hleft, if_pos hpos]
      simp only [List.map_append, List.map_cons, List.map_nil, List.sum_append, List.sum_cons,
        List.sum_nil, actionOf]
      linarith
    · intro hpos
      have hle := hcap hpos
      rw [max_eq_left (hs.left hpos)] at hle
      rw [hleft, if_pos hpos]
      linarith

theorem runIntents_spent (deployBudget : ℚ) (intents : List Intent) :
    Spent knobs prices (runIntents knobs positions prices deployBudget intents) := by
  refine Runs.run_keeps spent_allocateIntent _ intents ?_
  constructor
  · intro action hin
    cases hin
  · intro _
    simp
  · exact le_of_lt

end Allocated

section Orders

def orderValue (order : Order) : ℚ := order.price * order.qty

def valueOf (orders : List Order) : ℚ := (orders.map orderValue).sum

/-- The action is a buy that rounding took under the exchange's minimum. -/
def raisesOn (action : SizedAction) (markPrice : ℚ) (pair : PairInfo) : Bool :=
  let rules := buildExchangeRules pair
  action.side = .buy && 0 < quantizeQty action.qty rules &&
    !validateMinNotional (quantizePrice markPrice rules) (quantizeQty action.qty rules) rules

def raises (input : CycleInput) (action : SizedAction) : Bool :=
  match (pairInfoBySymbol input.pairInfo)[canonicalSymbol action.symbol]?,
    input.markPrices.get (canonicalSymbol action.symbol) with
  | some pair, some markPrice => raisesOn action markPrice pair
  | _, _ => false

/-- What an order takes from its action: the side, the price of the mark, and the quantity
unless it is raised. -/
theorem sizedActionToOrder_ok {action : SizedAction} {liveMode : Bool} {mark : Option ℚ}
    {pair : PairInfo} {createdAt : DateTime} {order : Order}
    (h : sizedActionToOrder action liveMode mark pair createdAt = .ok (.ok order)) :
    ∃ markPrice, mark = some markPrice ∧ 0 < markPrice ∧ order.side = action.side.text ∧
      order.price = quantizePrice markPrice (buildExchangeRules pair) ∧ 0 < order.qty ∧
      (raisesOn action markPrice pair = false →
        order.qty = quantizeQty action.qty (buildExchangeRules pair)) := by
  unfold sizedActionToOrder at h
  cases mark with
  | none => cases h
  | some markPrice =>
    simp only at h
    split at h
    · cases h
    · next hmark =>
      refine ⟨markPrice, rfl, not_le.mp hmark, ?_⟩
      split at h
      · cases h
      · split at h
        · cases h
        · next hqty =>
          split at h
          · obtain rfl := Except.ok.inj (Except.ok.inj h)
            exact ⟨rfl, rfl, not_le.mp hqty, fun _ => rfl⟩
          · next hvalid =>
            split at h
            · cases h
            · next hside =>
              split at h
              · cases h
              · split at h
                · cases h
                · next hraised =>
                  obtain rfl := Except.ok.inj (Except.ok.inj h)
                  have hup : quantizeQty action.qty (buildExchangeRules pair) <
                      raisedQty (quantizePrice markPrice (buildExchangeRules pair))
                        (buildExchangeRules pair) := by
                    by_contra hdown
                    exact hraised (by simp [not_lt.mp hdown])
                  refine ⟨rfl, rfl, (not_le.mp hqty).trans hup, fun hsame => ?_⟩
                  have hbuy : action.side = .buy := not_not.mp hside
                  simp [raisesOn, hbuy, not_le.mp hqty, hvalid] at hsame

/-- An order is worth nothing less than zero, and at the price its action was sized at no
more than the action, unless it is raised. -/
theorem mapAction_value {input : CycleInput} {action : SizedAction} {order : Order}
    (h : mapAction input action = .ok (.ok order)) :
    order.side = action.side.text ∧ 0 ≤ orderValue order ∧
      (raises input action = false → 0 ≤ action.qty →
        ∃ markPrice, input.markPrices.get (canonicalSymbol action.symbol) = some markPrice ∧
          orderValue order ≤ action.qty * markPrice) := by
  unfold mapAction at h
  cases hpair : (pairInfoBySymbol input.pairInfo)[canonicalSymbol action.symbol]? with
  | none =>
    simp only [hpair] at h
    cases h
  | some pair =>
    simp only [hpair] at h
    obtain ⟨markPrice, hmark, hpos, hside, hprice, hqty, hsame⟩ := sizedActionToOrder_ok h
    have hnonneg : 0 ≤ order.price := by
      rw [hprice]
      exact quantizePrice_nonneg _ hpos.le
    refine ⟨hside, mul_nonneg hnonneg hqty.le, fun hraises hheld => ⟨markPrice, hmark, ?_⟩⟩
    have hkept : order.qty = quantizeQty action.qty (buildExchangeRules pair) := by
      apply hsame
      simpa [raises, hpair, hmark] using hraises
    calc order.price * order.qty
        ≤ markPrice * action.qty := by
          refine mul_le_mul ?_ ?_ hqty.le hpos.le
          · rw [hprice]
            exact quantizePrice_le _ _
          · rw [hkept]
            exact quantizeQty_le _ _
      _ = action.qty * markPrice := mul_comm _ _

/-- The orders selected are among those requested, and worth no more together. -/
theorem selected_value (settings : Settings) {orders : List Order}
    (h : ∀ order ∈ orders, 0 ≤ orderValue order) :
    (∀ order ∈ (selectOrdersForCycle settings orders).1, order ∈ orders) ∧
      valueOf (selectOrdersForCycle settings orders).1 ≤ valueOf orders := by
  have hperm := List.perm_insertionSort RankedBefore orders
  constructor
  · intro order hin
    exact hperm.mem_iff.mp (List.mem_of_mem_take hin)
  · have hsub := ((List.take_sublist settings.maxOrdersPerCycle.toNat
      (orders.insertionSort RankedBefore)).map orderValue).sum_le_sum fun value hin => ?_
    · exact hsub.trans_eq (hperm.map orderValue).sum_eq
    · obtain ⟨order, horder, rfl⟩ := List.mem_map.mp hin
      exact h order (hperm.mem_iff.mp horder)

variable {input : CycleInput} {actions : List SizedAction} {mapped : List (Except String Order)}

/-- Orders each worth no more than its action are together worth no more than the actions. -/
theorem mapped_value
    (h : List.Forall₂ (fun action result => mapAction input action = .ok result) actions mapped)
    (hnotional : ∀ action ∈ actions, 0 ≤ action.notionalTry)
    (hvalue : ∀ action ∈ actions, ∀ order, mapAction input action = .ok (.ok order) →
      orderValue order ≤ action.notionalTry) :
    valueOf (mapped.filterMap Except.toOption) ≤ (actions.map SizedAction.notionalTry).sum := by
  induction h with
  | nil => exact le_refl _
  | @cons action result actions mapped hresult _ ih =>
    have hfirst := hnotional action List.mem_cons_self
    have hrest := ih (fun other hin => hnotional other (List.mem_cons_of_mem _ hin))
      fun other hin => hvalue other (List.mem_cons_of_mem _ hin)
    cases result with
    | error reason =>
      simp only [List.filterMap_cons, Except.toOption, List.map_cons, List.sum_cons]
      exact hrest.trans (le_add_of_nonneg_left hfirst)
    | ok order =>
      have hle := hvalue action List.mem_cons_self order hresult
      simp only [List.filterMap_cons, Except.toOption, valueOf, List.map_cons, List.sum_cons]
      exact add_le_add hle hrest

/-- An order requested is the order of an action. -/
theorem mapped_mem
    (h : List.Forall₂ (fun action result => mapAction input action = .ok result) actions mapped)
    {order : Order} (hin : order ∈ mapped.filterMap Except.toOption) :
    ∃ action ∈ actions, mapAction input action = .ok (.ok order) := by
  obtain ⟨result, hresult, hok⟩ := List.mem_filterMap.mp hin
  obtain ⟨action, haction, hmapped⟩ := Runs.mem_of_forall₂ h hresult
  cases result with
  | error reason => cases hok
  | ok mapped =>
    cases hok
    exact ⟨action, haction, hmapped⟩

end Orders

section Shares

variable (service : Service) (input : CycleInput) (scores : Mapping ℚ)

/-- A plan buys something, for what the plan says. -/
def Buys (plan : ℚ × ℚ × ℚ) : Prop := 0 < plan.2.2 ∧ plan.1 * plan.2.1 = plan.2.2

/-- What the plans of the symbols cost together. -/
def costOf (plans : Dict (ℚ × ℚ × ℚ)) : ℚ := (plans.toList.map fun entry => entry.2.2.2).sum

/-- A share that is planned: its price and quantity are the quantized ones, and not too small. -/
theorem planShare_cases {deployBudget weight mark : ℚ} {pair : PairInfo} {plan : ℚ × ℚ × ℚ}
    (h : planShare deployBudget weight mark pair = .ok plan) :
    0 < plan.1 ∧ 0 < plan.2.1 ∧ plan.1 = quantizePrice mark (buildExchangeRules pair) ∧
      plan.2.1 = quantizeQty (deployBudget * weight / plan.1) (buildExchangeRules pair) ∧
      plan.2.2 = plan.2.1 * plan.1 ∧
      (buildExchangeRules pair).minNotionalTry ≤ plan.1 * plan.2.1 := by
  simp only [planShare] at h
  split at h
  · cases h
  · next hprice =>
    split at h
    · cases h
    · split at h
      · cases h
      · next hkept =>
        obtain rfl := Except.ok.inj h
        obtain ⟨hqty, hmin⟩ := not_or.mp (fun hdown => hkept (Bool.or_eq_true_iff.mpr hdown))
        refine ⟨not_le.mp hprice, not_le.mp fun hle => hqty (decide_eq_true hle), rfl, rfl, rfl, ?_⟩
        simpa [validateMinNotional] using hmin

theorem planShare_ok {deployBudget weight mark : ℚ} {pair : PairInfo} {plan : ℚ × ℚ × ℚ}
    (h : planShare deployBudget weight mark pair = .ok plan) :
    Buys plan ∧ plan.2.2 ≤ deployBudget * weight := by
  obtain ⟨hprice, hqty, -, hquantized, hnotional, -⟩ := planShare_cases h
  refine ⟨⟨?_, ?_⟩, ?_⟩
  · rw [hnotional]
    exact mul_pos hqty hprice
  · rw [hnotional]
    exact mul_comm _ _
  · calc plan.2.2 = plan.2.1 * plan.1 := hnotional
      _ ≤ deployBudget * weight / plan.1 * plan.1 := by
          refine mul_le_mul_of_nonneg_right ?_ hprice.le
          rw [hquantized]
          exact quantizeQty_le _ _
      _ = deployBudget * weight := div_mul_cancel₀ _ hprice.ne'

theorem weightScore_nonneg (symbol : String) : 0 ≤ weightScore scores symbol := le_max_left _ _

theorem weightOf_nonneg (kept : List String) (symbol : String) :
    0 ≤ weightOf scores kept symbol := by
  simp only [weightOf]
  split
  · next h => exact div_nonneg (weightScore_nonneg scores symbol) h.le
  · exact div_nonneg zero_le_one (Nat.cast_nonneg _)

/-- The weights of the symbols kept make up no more than the whole. -/
theorem weights_le_one (kept : List String) : (kept.map (weightOf scores kept)).sum ≤ 1 := by
  by_cases hpos : 0 < (kept.map (weightScore scores)).sum
  · have hdiv : kept.map (weightOf scores kept) = kept.map fun symbol =>
        weightScore scores symbol * ((kept.map (weightScore scores)).sum)⁻¹ := by
      refine List.map_congr_left fun symbol _ => ?_
      simp only [weightOf, if_pos hpos, div_eq_mul_inv]
    rw [hdiv, List.sum_map_mul_right, mul_inv_cancel₀ hpos.ne']
  · have heq : kept.map (weightOf scores kept) = kept.map fun _ => (1 : ℚ) / kept.length := by
      refine List.map_congr_left fun symbol _ => ?_
      simp only [weightOf, if_neg hpos]
    rw [heq, List.map_const', List.sum_replicate, nsmul_eq_mul, mul_one_div]
    exact div_self_le_one _

/-- The plans buy, and cost no more than a limit. -/
structure Funded (limit : ℚ) (plans : Dict (ℚ × ℚ × ℚ)) : Prop where
  buys : ∀ (symbol : String) plan, plans[symbol]? = some plan → Buys plan
  cost : costOf plans ≤ limit

theorem Funded.empty {limit : ℚ} (h : 0 ≤ limit) : Funded limit ∅ := by
  constructor
  · intro symbol plan hplan
    simp at hplan
  · rw [costOf, Std.ExtTreeMap.toList_eq_nil_iff.mpr rfl]
    exact h

/-- A plan more costs no more than its share, whether or not it takes another's place. -/
theorem Funded.insert {limit share : ℚ} {plans : Dict (ℚ × ℚ × ℚ)} (hf : Funded limit plans)
    (symbol : String) {plan : ℚ × ℚ × ℚ} (hbuys : Buys plan) (hshare : plan.2.2 ≤ share) :
    Funded (limit + share) (plans.insert symbol plan) := by
  constructor
  · intro other found hfound
    rw [Dict.insert_get] at hfound
    split at hfound
    · obtain rfl := Option.some.inj hfound
      exact hbuys
    · exact hf.buys other found hfound
  · have hcost := hf.cost
    have hold : 0 ≤ (plans[symbol]?.map fun plan => plan.2.2).getD 0 := by
      cases hplan : plans[symbol]? with
      | none => exact le_refl _
      | some old => exact (hf.buys symbol old hplan).1.le
    have hsum := Dict.sum_insert plans symbol plan fun plan => plan.2.2
    unfold costOf at hcost ⊢
    linarith

theorem shareSymbol_funded {limit : ℚ} (sharing : Sharing) (kept : List String) (symbol : String)
    (hdeploy : 0 ≤ aggressiveDeployBudget service input) (hf : Funded limit sharing.plans) :
    Funded (limit + aggressiveDeployBudget service input * weightOf scores kept symbol)
      (shareSymbol service input scores kept sharing symbol).plans := by
  unfold shareSymbol
  cases hshare : shareOf service input scores kept symbol with
  | error reason =>
    have hmore := mul_nonneg hdeploy (weightOf_nonneg scores kept symbol)
    exact ⟨hf.buys, hf.cost.trans (le_add_of_nonneg_right hmore)⟩
  | ok plan =>
    unfold shareOf at hshare
    split at hshare
    · cases hshare
    · obtain ⟨hbuys, hle⟩ := planShare_ok hshare
      exact hf.insert symbol hbuys hle

/-- The symbols of a pass cost no more than their weights of the budget. -/
theorem foldl_funded {limit : ℚ} (sharing : Sharing) (kept symbols : List String)
    (hdeploy : 0 ≤ aggressiveDeployBudget service input) (hf : Funded limit sharing.plans) :
    Funded (limit + aggressiveDeployBudget service input *
        (symbols.map (weightOf scores kept)).sum)
      (symbols.foldl (shareSymbol service input scores kept) sharing).plans := by
  induction symbols generalizing limit sharing with
  | nil => simpa using hf
  | cons symbol symbols ih =>
    rw [List.foldl_cons, List.map_cons, List.sum_cons, mul_add, ← add_assoc]
    exact ih _ (shareSymbol_funded service input scores sharing kept symbol hdeploy hf)

theorem sharePass_funded (sharing : Sharing)
    (hdeploy : 0 ≤ aggressiveDeployBudget service input) :
    Funded (aggressiveDeployBudget service input)
      (sharePass service input scores sharing).plans := by
  have hpass := foldl_funded service input scores { sharing with plans := ∅, again := false }
    sharing.kept sharing.kept hdeploy (Funded.empty (le_refl 0))
  refine ⟨hpass.buys, hpass.cost.trans ?_⟩
  rw [zero_add]
  exact mul_le_of_le_one_right hdeploy (weights_le_one scores sharing.kept)

/-- The shares of the budget cost no more than the budget. -/
theorem share_funded (selectedUniverse : List String)
    (hdeploy : 0 ≤ aggressiveDeployBudget service input) :
    Funded (aggressiveDeployBudget service input)
      (share service input scores selectedUniverse).plans :=
  WhileLoop.run_induct (I := fun _ sharing =>
      Funded (aggressiveDeployBudget service input) sharing.plans)
    (fun _ sharing _ _ => sharePass_funded service input scores sharing hdeploy) _ 0 _
    (Funded.empty hdeploy)

/-- A pass drops what it says it drops. -/
theorem foldl_drops (sharing : Sharing) (kept symbols : List String)
    (hin : symbols.Subperm sharing.kept) :
    (symbols.foldl (shareSymbol service input scores kept) sharing).kept.length ≤
      sharing.kept.length ∧
    (sharing.again = false →
      (symbols.foldl (shareSymbol service input scores kept) sharing).again = true →
      (symbols.foldl (shareSymbol service input scores kept) sharing).kept.length <
        sharing.kept.length) := by
  induction symbols generalizing sharing with
  | nil =>
    refine ⟨le_refl _, fun hstop hagain => ?_⟩
    rw [List.foldl_nil, hstop] at hagain
    cases hagain
  | cons symbol symbols ih =>
    have hmem : symbol ∈ sharing.kept := hin.subset List.mem_cons_self
    rw [List.foldl_cons]
    cases hshare : shareOf service input scores kept symbol with
    | error reason =>
      have hnext : (shareSymbol service input scores kept sharing symbol).kept =
          sharing.kept.erase symbol := by
        simp [shareSymbol, hshare]
      have hless : (sharing.kept.erase symbol).length < sharing.kept.length := by
        have hpos := List.length_pos_of_mem hmem
        rw [List.length_erase_of_mem hmem]
        omega
      have hrest := ih (shareSymbol service input scores kept sharing symbol) (by
        rw [hnext]
        simpa using hin.erase symbol)
      rw [hnext] at hrest
      exact ⟨hrest.1.trans hless.le, fun _ _ => hrest.1.trans_lt hless⟩
    | ok plan =>
      have hkept : (shareSymbol service input scores kept sharing symbol).kept = sharing.kept := by
        simp [shareSymbol, hshare]
      have hagain : (shareSymbol service input scores kept sharing symbol).again =
          sharing.again := by
        simp [shareSymbol, hshare]
      have hrest := ih (shareSymbol service input scores kept sharing symbol) (by
        rw [hkept]
        exact (List.sublist_cons_self symbol symbols).subperm.trans hin)
      rwa [hkept, hagain] at hrest

/-- A pass after which another follows leaves fewer symbols. -/
theorem sharePass_drops (sharing : Sharing)
    (hguard : (sharing.again && sharing.kept ≠ []) = true) :
    (sharePass service input scores sharing).kept.length +
        (sharePass service input scores sharing).again.toNat <
      sharing.kept.length + sharing.again.toNat := by
  have hagain : sharing.again = true := (Bool.and_eq_true_iff.mp hguard).1
  obtain ⟨hle, hless⟩ := foldl_drops service input scores
    { sharing with plans := ∅, again := false } sharing.kept sharing.kept (List.Subperm.refl _)
  rw [hagain]
  cases hpass : (sharePass service input scores sharing).again with
  | false => exact Nat.add_lt_add_of_le_of_lt hle Nat.zero_lt_one
  | true => exact Nat.add_lt_add_right (hless rfl hpass) 1

/-- The loop ends with no symbol left, or with a pass that dropped none. -/
theorem share_ends (selectedUniverse : List String) :
    ((share service input scores selectedUniverse).again &&
      (share service input scores selectedUniverse).kept ≠ []) = false :=
  @WhileLoop.guard_run _ (fun sharing : Sharing => sharing.again && sharing.kept ≠ []) _
    (fun sharing => sharing.kept.length + sharing.again.toNat)
    (sharePass_drops service input scores) _ _ (le_refl _)

end Shares

section Budget

variable (service : Service) (input : CycleInput)

theorem feeBuffer_nonneg : 0 ≤ resolveFeeBufferRatio service.settings.feeBufferRatio
    service.settings.allocationFeeBufferBps :=
  resolveFeeBufferRatio_nonneg _ _

theorem aggressiveDeployBudget_nonneg : 0 ≤ aggressiveDeployBudget service input := by
  have hfee := feeBuffer_nonneg service
  refine div_nonneg (mul_nonneg (le_max_left _ _) (le_max_left _ _)) ?_
  linarith

/-- With the multiplier at zero there is nothing to share. -/
theorem aggressiveDeployBudget_stopped (h : input.budgetNotionalMultiplier = 0) :
    aggressiveDeployBudget service input = 0 := by
  simp [aggressiveDeployBudget, aggressiveInvestable, scaledMultiplier, h]

theorem shares_nil (scores : Mapping ℚ) (selectedUniverse : List String)
    (h : input.budgetNotionalMultiplier = 0) :
    (share service input scores selectedUniverse).plans.toList = [] := by
  obtain ⟨hbuys, hcost⟩ := share_funded service input scores selectedUniverse
    (aggressiveDeployBudget_nonneg service input)
  rw [aggressiveDeployBudget_stopped service input h] at hcost
  by_contra hplans
  refine absurd hcost (not_le.mpr (List.sum_pos _ ?_ ?_))
  · intro cost hin
    obtain ⟨entry, hentry, rfl⟩ := List.mem_map.mp hin
    exact (hbuys entry.1 entry.2 ((Dict.mem_toList _ entry).mp hentry)).1
  · simpa using hplans

/-- What is shared is within the scaled cap where the unscaled is within the cap. -/
theorem aggressiveDeployBudget_le {cap : ℚ} (hpos : 0 < input.budgetNotionalMultiplier)
    (hcap : 0 < cap)
    (h : ((input.balances.get "TRY").getD 0 - service.settings.tryCashTarget) /
        (1 + resolveFeeBufferRatio service.settings.feeBufferRatio
          service.settings.allocationFeeBufferBps) ≤ cap) :
    aggressiveDeployBudget service input ≤ cap * input.budgetNotionalMultiplier := by
  have hfee : 0 < 1 + resolveFeeBufferRatio service.settings.feeBufferRatio
      service.settings.allocationFeeBufferBps := by
    linarith [feeBuffer_nonneg service]
  rw [div_le_iff₀ hfee] at h
  rw [aggressiveDeployBudget, aggressiveInvestable, scaledMultiplier, aggressiveCash,
    max_eq_right hpos.le, div_le_iff₀ hfee]
  calc max 0 ((input.balances.get "TRY").getD 0 - service.settings.tryCashTarget) *
        input.budgetNotionalMultiplier
      ≤ cap * (1 + resolveFeeBufferRatio service.settings.feeBufferRatio
          service.settings.allocationFeeBufferBps) * input.budgetNotionalMultiplier := by
        exact mul_le_mul_of_nonneg_right (max_le (mul_pos hcap hfee).le h) hpos.le
    _ = _ := by ring

/-- Nothing is shared where no symbol is eligible. -/
theorem runAggressivePath_unlisted (scores : Mapping ℚ) {selectedUniverse : List String}
    (h : eligible input selectedUniverse = []) :
    (runAggressivePath service input scores selectedUniverse).orderRequests = [] := by
  have hplans : (share service input scores selectedUniverse).plans.toList = [] := by
    rw [share, h]
    rfl
  simp [runAggressivePath, hplans, selectOrdersForCycle]

/-- The orders of the shares are worth what their plans cost. -/
theorem shares_value (plans : List (String × ℚ × ℚ × ℚ)) (h : ∀ entry ∈ plans, Buys entry.2) :
    (∀ order ∈ plans.mapIdx fun index entry => aggressiveOrder input index entry.1 entry.2,
      0 ≤ orderValue order) ∧
    valueOf (plans.mapIdx fun index entry => aggressiveOrder input index entry.1 entry.2) =
      (plans.map fun entry => entry.2.2.2).sum := by
  have hvalues : (plans.mapIdx fun index entry => aggressiveOrder input index entry.1 entry.2).map
      orderValue = plans.map fun entry => entry.2.2.2 := by
    apply List.ext_getElem?
    intro index
    rw [List.getElem?_map, List.getElem?_map, List.getElem?_mapIdx]
    cases hentry : plans[index]? with
    | none => rfl
    | some entry => exact congrArg some (h entry (List.mem_of_getElem? hentry)).2
  refine ⟨fun order horder => ?_, congrArg List.sum hvalues⟩
  have hin : orderValue order ∈ plans.map fun entry => entry.2.2.2 := by
    rw [← hvalues]
    exact List.mem_map_of_mem horder
  obtain ⟨entry, hentry, hcost⟩ := List.mem_map.mp hin
  rw [← hcost]
  exact (h entry hentry).1.le

/-- With scores, the orders are worth no more than the deploy budget, and with the
multiplier at zero there are none. -/
theorem runAggressivePath_value (scores : Mapping ℚ) (selectedUniverse : List String) :
    valueOf (runAggressivePath service input scores selectedUniverse).orderRequests ≤
        aggressiveDeployBudget service input ∧
      (input.budgetNotionalMultiplier = 0 →
        (runAggressivePath service input scores selectedUniverse).orderRequests = []) := by
  obtain ⟨hbuys, hcost⟩ := share_funded service input scores selectedUniverse
    (aggressiveDeployBudget_nonneg service input)
  obtain ⟨hnonneg, hvalue⟩ := shares_value input
    (share service input scores selectedUniverse).plans.toList fun entry hentry =>
      hbuys entry.1 entry.2 ((Dict.mem_toList _ entry).mp hentry)
  constructor
  · calc valueOf (runAggressivePath service input scores selectedUniverse).orderRequests
        ≤ _ := (selected_value service.settings hnonneg).2
      _ = costOf (share service input scores selectedUniverse).plans := hvalue
      _ ≤ aggressiveDeployBudget service input := hcost
  · intro hstop
    have hplans := shares_nil service input scores selectedUniverse hstop
    simp [runAggressivePath, hplans, selectOrdersForCycle]

end Budget

section Cycle

variable (service : Service) (input : CycleInput)

/-- The orders are within the scaled cap, and at multiplier zero none of them buys. -/
def WithinCap (settings : Settings) (multiplier : ℚ) (orders : List Order) : Prop :=
  (0 < settings.notionalCapTryPerCycle →
      valueOf orders ≤ settings.notionalCapTryPerCycle * multiplier) ∧
    (multiplier = 0 → ∀ order ∈ orders, order.side ≠ "buy")

instance (settings : Settings) (multiplier : ℚ) (orders : List Order) :
    Decidable (WithinCap settings multiplier orders) := inferInstanceAs (Decidable (_ ∧ _))

/-- The actions allocated where there are no scores. -/
def actionsOf : List SizedAction :=
  (allocationOf service input
    (generateIntents service input (selectUniverse service input))).actions

/-- An action is mapped at a price above the one it was sized at. -/
def dearer (action : SizedAction) : Bool :=
  match input.markPrices.get (canonicalSymbol action.symbol),
    (input.markPrices.mapKeys canonicalSymbol).get action.symbol with
  | some markPrice, some sizedAt => sizedAt < markPrice
  | _, _ => false

/-- An order comes of the action. -/
def ordered (action : SizedAction) : Bool :=
  match mapAction input action with
  | .ok (.ok _) => true
  | _ => false

/-- None of the ways over the cap is taken. -/
structure CapBinds : Prop where
  /-- The cash over the target that the eligible symbols share, less the fees, is within the cap. -/
  shares : scoresOf input ≠ none → 0 < input.budgetNotionalMultiplier →
    0 < service.settings.notionalCapTryPerCycle →
    eligible input (selectUniverse service input) ≠ [] →
    ((input.balances.get "TRY").getD 0 - service.settings.tryCashTarget) /
        (1 + resolveFeeBufferRatio service.settings.feeBufferRatio
          service.settings.allocationFeeBufferBps) ≤
      service.settings.notionalCapTryPerCycle
  /-- A cap scaled to zero, which is no cap, has nothing to stop. -/
  stopped : scoresOf input = none → input.budgetNotionalMultiplier = 0 →
    ∀ action ∈ actionsOf service input, ordered input action = true →
      service.settings.notionalCapTryPerCycle ≤ 0 ∧ action.side = .sell
  /-- No action is raised to the exchange's minimum, or repriced, after the cap was spent. -/
  mapped : scoresOf input = none → 0 < input.budgetNotionalMultiplier →
    0 < service.settings.notionalCapTryPerCycle →
    ∀ action ∈ actionsOf service input, ordered input action = true →
      raises input action = false ∧ dearer input action = false

variable {input} in
theorem ordered_of {action : SizedAction} {order : Order}
    (h : mapAction input action = .ok (.ok order)) : ordered input action = true := by
  rw [ordered, h]

theorem actionsOf_spent :
    (∀ action ∈ actionsOf service input,
      Sized (knobsOf service input) (input.markPrices.mapKeys canonicalSymbol) action) ∧
    (0 < (knobsOf service input).maxTotalNotionalTryPerCycle →
      ((actionsOf service input).map SizedAction.notionalTry).sum ≤
        (knobsOf service input).maxTotalNotionalTryPerCycle) := by
  have hspent := @runIntents_spent (knobsOf service input)
    (input.positions.mapKeys canonicalSymbol) (input.markPrices.mapKeys canonicalSymbol)
    (budgetsOf (knobsOf service input)
      (((input.balances.mapKeys String.toUpper).get "TRY").getD 0)).2.2
    (generateIntents service input (selectUniverse service input))
  refine ⟨hspent.sized, fun hcap => ?_⟩
  have hsum := hspent.spent hcap
  have hleft := hspent.left hcap
  have hle := le_of_le_of_eq (le_add_of_nonneg_right hleft) hsum
  exact hle

/-- What the report of the normal path selects, and from what. -/
theorem runNormalPath_ok {selectedUniverse : List String} {report : CycleDecisionReport}
    (h : runNormalPath service input selectedUniverse = .ok report) :
    ∃ mapped, List.Forall₂ (fun action result => mapAction input action = .ok result)
        (allocationOf service input (generateIntents service input selectedUniverse)).actions
        mapped ∧
      report.orderRequests =
        (selectOrdersForCycle service.settings (mapped.filterMap Except.toOption)).1 := by
  unfold runNormalPath at h
  cases hmapped : (allocationOf service input
      (generateIntents service input selectedUniverse)).actions.mapM (mapAction input) with
  | error e =>
    simp only [hmapped] at h
    cases h
  | ok mapped =>
    simp only [hmapped] at h
    obtain rfl := Except.ok.inj h
    exact ⟨mapped, Runs.mapM_ok hmapped, rfl⟩

/-- On the normal path the orders are within the cap. -/
theorem runNormalPath_within {report : CycleDecisionReport} (hscores : scoresOf input = none)
    (hnonneg : 0 ≤ input.budgetNotionalMultiplier) (hbinds : CapBinds service input)
    (h : runNormalPath service input (selectUniverse service input) = .ok report) :
    WithinCap service.settings input.budgetNotionalMultiplier report.orderRequests := by
  obtain ⟨mapped, hmapped, horders⟩ := runNormalPath_ok service input h
  obtain ⟨hsized, hspent⟩ := actionsOf_spent service input
  have hvalues : ∀ order ∈ mapped.filterMap Except.toOption, 0 ≤ orderValue order := by
    intro order hin
    obtain ⟨action, -, haction⟩ := mapped_mem hmapped hin
    exact (mapAction_value haction).2.1
  obtain ⟨hselected, hvalue⟩ := selected_value service.settings hvalues
  rw [← horders] at hselected hvalue
  rcases hnonneg.eq_or_lt' with hzero | hpos
  · have hstopped := hbinds.stopped hscores hzero
    constructor
    · intro hcap
      have hvoid : mapped.filterMap Except.toOption = [] := by
        refine List.eq_nil_iff_forall_not_mem.mpr fun order hin => ?_
        obtain ⟨action, haction, hmap⟩ := mapped_mem hmapped hin
        exact absurd hcap (not_lt.mpr (hstopped action haction (ordered_of hmap)).1)
      rw [hvoid] at hvalue
      rw [hzero, mul_zero]
      exact hvalue
    · intro _ order hin
      obtain ⟨action, haction, hmap⟩ := mapped_mem hmapped (hselected order hin)
      rw [(mapAction_value hmap).1, (hstopped action haction (ordered_of hmap)).2]
      decide
  · refine ⟨fun hcap => ?_, fun hzero => absurd hzero hpos.ne'⟩
    have hknobs : (knobsOf service input).maxTotalNotionalTryPerCycle =
        service.settings.notionalCapTryPerCycle * input.budgetNotionalMultiplier := by
      rw [knobsOf, max_eq_right hnonneg]
    rw [hknobs] at hspent
    have hmin : ∀ action ∈ actionsOf service input, 0 ≤ action.notionalTry := fun action hin =>
      service.settings.minOrderNotionalTry_pos.le.trans (hsized action hin).min
    calc valueOf report.orderRequests
        ≤ valueOf (mapped.filterMap Except.toOption) := hvalue
      _ ≤ ((actionsOf service input).map SizedAction.notionalTry).sum := by
          refine mapped_value hmapped hmin fun action hin order hmap => ?_
          obtain ⟨hraises, hpriced⟩ := hbinds.mapped hscores hpos hcap action hin (ordered_of hmap)
          obtain ⟨price, hprice, hmark, hqty⟩ := (hsized action hin).qty
          have hheld : 0 ≤ action.qty := by
            have hnotional := hmin action hin
            rw [← hqty] at hnotional
            exact nonneg_of_mul_nonneg_left hnotional hmark
          obtain ⟨markPrice, hfound, hle⟩ := (mapAction_value hmap).2.2 hraises hheld
          have hcheap : markPrice ≤ price := by simpa [dearer, hfound, hprice] using hpriced
          calc orderValue order ≤ action.qty * markPrice := hle
            _ ≤ action.qty * price := mul_le_mul_of_nonneg_left hcheap hheld
            _ = action.notionalTry := hqty
      _ ≤ service.settings.notionalCapTryPerCycle * input.budgetNotionalMultiplier :=
          hspent (mul_pos hcap hpos)

theorem cycle_within_cap (hnonneg : 0 ≤ input.budgetNotionalMultiplier)
    (hbinds : CapBinds service input) {report : CycleDecisionReport}
    (h : runCycle service input = .ok report) :
    WithinCap service.settings input.budgetNotionalMultiplier report.orderRequests := by
  unfold runCycle at h
  cases hscores : scoresOf input with
  | none =>
    simp only [hscores] at h
    exact runNormalPath_within service input hscores hnonneg hbinds h
  | some scores =>
    simp only [hscores] at h
    obtain rfl := Except.ok.inj h
    obtain ⟨hvalue, hstopped⟩ :=
      runAggressivePath_value service input scores (selectUniverse service input)
    refine ⟨fun hcap => ?_, fun hzero => ?_⟩
    · rcases hnonneg.eq_or_lt' with hzero | hpos
      · rw [hstopped hzero, hzero, mul_zero]
        exact le_refl _
      · by_cases hnone : eligible input (selectUniverse service input) = []
        · rw [runAggressivePath_unlisted service input scores hnone]
          exact (mul_pos hcap hpos).le
        · exact hvalue.trans (aggressiveDeployBudget_le service input hpos hcap
            (hbinds.shares (hscores ▸ Option.some_ne_none scores) hpos hcap hnone))
    · rw [hstopped hzero]
      exact fun order hin => nomatch hin

def bitcoin : PairInfo := { pairSymbol := "BTCTRY", numeratorScale := 4, denominatorScale := 2 }

def baseline (settings : Settings) : Service where
  settings := settings
  registry := baselineMeanReversion
  universeSelector _ _ := []

/-- A cycle that holds 1000 TRY and no coin, with one mark price. -/
def flatCycle (pair : PairInfo) (multiplier : ℚ) : CycleInput where
  nowTs := ⟨0, true⟩
  balances := ⟨[("TRY", 1000)], by decide⟩
  positions := Mapping.empty
  markPrices := ⟨[("BTCTRY", 100)], by decide⟩
  openOrders := []
  pairInfo := some [pair]
  bootstrapEnabled := true
  liveMode := true
  budgetNotionalMultiplier := multiplier

theorem exists_overrun
    (h : (runCycle service input).toOption.any (fun report =>
      ¬ WithinCap service.settings input.budgetNotionalMultiplier report.orderRequests) = true) :
    ∃ report, runCycle service input = .ok report ∧
      ¬ WithinCap service.settings input.budgetNotionalMultiplier report.orderRequests := by
  cases hreport : runCycle service input with
  | error e =>
    rw [hreport] at h
    cases h
  | ok report =>
    rw [hreport] at h
    exact ⟨report, rfl, of_decide_eq_true h⟩

/-- With the multiplier at zero a coin is bought, the scored symbols are given seven times
the cap, and an order is raised past it. -/
theorem cycle_cap_overrun :
    (∃ report, runCycle (baseline { symbols := [] }) (flatCycle bitcoin 0) = .ok report ∧
      ¬ WithinCap { symbols := [] } 0 report.orderRequests) ∧
    (∃ report, runCycle (baseline { symbols := [], notionalCapTryPerCycle := 100 })
        { flatCycle bitcoin 1 with aggressiveScores := some ⟨[("BTCTRY", 1)], by decide⟩ } =
        .ok report ∧
      ¬ WithinCap { symbols := [], notionalCapTryPerCycle := 100 } 1 report.orderRequests) ∧
    (∃ report, runCycle (baseline { symbols := [], notionalCapTryPerCycle := 50 })
        (flatCycle { bitcoin with stepSize := some (3 / 10), minTotalAmount := some 50 } 1) =
        .ok report ∧
      ¬ WithinCap { symbols := [], notionalCapTryPerCycle := 50 } 1 report.orderRequests) := by
  refine ⟨exists_overrun _ _ ?_, exists_overrun _ _ ?_, exists_overrun _ _ ?_⟩
  · decide +kernel
  · decide +kernel
  · decide +kernel

end Cycle

end CycleCap
