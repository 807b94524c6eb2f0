import Btcbot.OrderBuilder
import Btcbot.Runs
import Mathlib.Algebra.BigOperators.Ring.List
import Mathlib.Algebra.Order.BigOperators.Group.List

/-!
# What funds the buys of a plan

The plan's cash is a purse: the sells pay into it and every buy is paid from it. The builder
checks a buy against the cash the plan started with, so the purse may be overdrawn when a
sell that the plan counted on is not built.
-/
namespace PlanFunding

open PyData PortfolioPolicy OrderBuilder
open AllocationService (Mapping Side)
open Runs (MeetsM)

section Requests

/-- Sorted by side, the actions are the same. -/
theorem sides_perm {α : Type} (side : α → Side) (r r' : α → α → Prop) [DecidableRel r]
    [DecidableRel r'] (actions : List α) :
    ((actions.filter fun action => side action = .sell).insertionSort r ++
      (actions.filter fun action => side action = .buy).insertionSort r').Perm actions := by
  have hbuys : actions.filter (fun action => side action = .buy) =
      actions.filter fun action => !decide (side action = .sell) := by
    refine List.filter_congr fun action _ => ?_
    cases side action <;> rfl
  refine ((List.perm_insertionSort _ _).append (List.perm_insertionSort _ _)).trans ?_
  rw [hbuys]
  exact List.filter_append_perm _ _

/-- What the actions of a side ask for. -/
def requested (side : Side) (actions : List RawAction) : ℚ :=
  ((actions.filter fun action => action.side = side).map RawAction.requestedNotionalTry).sum

theorem buildRawActions_perm (allocations : List TargetAllocation)
    (positions : List PositionSnapshot) :
    (buildRawActions allocations positions).Perm
      (allocations.filterMap (rawActionOf positions)) :=
  sides_perm RawAction.side _ _ _

theorem requested_buildRawActions (side : Side) (allocations : List TargetAllocation)
    (positions : List PositionSnapshot) :
    requested side (buildRawActions allocations positions) =
      requested side (allocations.filterMap (rawActionOf positions)) :=
  (((buildRawActions_perm allocations positions).filter _).map _).sum_eq

/-- The buys bring what is held, less the sells, to the targets. -/
theorem requested_balance (allocations : List TargetAllocation)
    (positions : List PositionSnapshot) :
    requested .buy (allocations.filterMap (rawActionOf positions)) +
        (allocations.map fun allocation => currentNotional positions allocation.symbol).sum =
      requested .sell (allocations.filterMap (rawActionOf positions)) +
        (allocations.map TargetAllocation.targetNotionalTry).sum := by
  induction allocations with
  | nil => simp [requested]
  | cons allocation allocations ih =>
    rw [List.map_cons, List.map_cons, List.sum_cons, List.sum_cons, List.filterMap_cons]
    unfold requested at ih ⊢
    rcases lt_trichotomy (allocation.targetNotionalTry -
      currentNotional positions allocation.symbol) 0 with hneg | hzero | hpos
    · simp only [rawActionOf, hneg, hneg.ne, if_false, if_true, List.filter_cons, decide_true,
        List.map_cons, List.sum_cons, abs_of_neg hneg, reduceCtorEq, decide_false,
        Bool.false_eq_true]
      linarith
    · simp only [rawActionOf, hzero, if_true]
      linarith
    · simp only [rawActionOf, hpos.ne', not_lt.mpr hpos.le, if_false, if_true, List.filter_cons,
        decide_true, List.map_cons, List.sum_cons, abs_of_pos hpos, reduceCtorEq, decide_false,
        Bool.false_eq_true]
      linarith

variable (settings : Settings) (input : PlanInput)

@[simp] theorem positionOf_symbol (prices : List (String × ℚ)) (balances : List Balance)
    (quote symbol : String) : (positionOf prices balances quote symbol).symbol = symbol := by
  unfold positionOf
  cases splitSymbol symbol quote
  rfl

theorem positionOf_notional (prices : List (String × ℚ)) (balances : List Balance)
    (quote symbol : String) :
    (positionOf prices balances quote symbol).notionalTry =
      (positionOf prices balances quote symbol).qty *
        (positionOf prices balances quote symbol).markPriceTry := by
  unfold positionOf
  cases splitSymbol symbol quote
  rfl

theorem currentNotional_snapshot {symbol : String} (h : symbol ∈ filteredUniverse input) :
    currentNotional (buildSnapshot settings input).positions symbol =
      (positionOf (priceMap input.markPricesTry) input.balances (quoteCcy settings)
        symbol).notionalTry := by
  have hmem : ∀ position, position ∈ (buildSnapshot settings input).positions ↔
      ∃ other ∈ filteredUniverse input, positionOf (priceMap input.markPricesTry) input.balances
        (quoteCcy settings) other = position := by
    intro position
    exact (List.mem_insertionSort _).trans List.mem_map
  unfold currentNotional
  cases hfind : (buildSnapshot settings input).positions.find? fun position =>
      position.symbol = symbol with
  | none =>
    have hmissing := List.find?_eq_none.mp hfind _ ((hmem _).mpr ⟨symbol, h, rfl⟩)
    exact absurd (decide_eq_true (positionOf_symbol _ _ _ symbol)) hmissing
  | some position =>
    obtain ⟨other, -, rfl⟩ := (hmem position).mp (List.mem_of_find?_eq_some hfind)
    have hsymbol : other = symbol := by simpa using List.find?_some hfind
    rw [hsymbol, Option.map_some, Option.getD_some]

theorem held_snapshot :
    ((filteredUniverse input).map fun symbol =>
        currentNotional (buildSnapshot settings input).positions symbol).sum =
      (buildSnapshot settings input).equityTry - (buildSnapshot settings input).cashTry := by
  rw [List.map_congr_left fun symbol hin => currentNotional_snapshot settings input hin]
  simp [buildSnapshot, Function.comp_def]

theorem targets_le {symbols : List String} {weights : List (String × ℚ)} {investable : ℚ}
    (hpos : 0 ≤ investable)
    (hweights : (symbols.map fun symbol => (KeyedTable.get? weights symbol).getD 0).sum ≤ 1) :
    (symbols.map fun symbol =>
      (allocationOf settings investable weights symbol).targetNotionalTry).sum ≤ investable := by
  calc (symbols.map fun symbol =>
        (allocationOf settings investable weights symbol).targetNotionalTry).sum
      ≤ (symbols.map fun symbol => investable * (KeyedTable.get? weights symbol).getD 0).sum :=
        List.sum_le_sum fun symbol _ => min_le_left _ _
    _ = investable * (symbols.map fun symbol => (KeyedTable.get? weights symbol).getD 0).sum :=
        List.sum_map_mul_left _ _ _
    _ ≤ investable * 1 := mul_le_mul_of_nonneg_left hweights hpos
    _ = investable := mul_one _

/-- Before the constraints cut them, the actions of a plan are funded. -/
theorem rawActions_funded {weights : List (String × ℚ)}
    (hweights : ((filteredUniverse input).map fun symbol =>
      (KeyedTable.get? weights symbol).getD 0).sum ≤ 1)
    (hcash : 0 ≤ (buildSnapshot settings input).cashTry) (htarget : 0 ≤ cashTargetTry settings) :
    let snapshot := buildSnapshot settings input
    let actions := buildRawActions (buildAllocations settings (filteredUniverse input)
      (investableEquity settings snapshot) weights) snapshot.positions
    requested .buy actions ≤ snapshot.cashTry + requested .sell actions := by
  intro snapshot actions
  simp only [actions, requested_buildRawActions]
  unfold buildAllocations
  split
  · simpa [requested] using hcash
  · next hsome =>
    have hpos := not_le.mp (not_or.mp hsome).2
    have hinvestable : investableEquity settings snapshot =
        snapshot.equityTry - cashTargetTry settings := by
      unfold investableEquity at hpos ⊢
      exact max_eq_right (le_of_lt (by simpa using hpos))
    have hbalance := requested_balance (((filteredUniverse input).insertionSort (· ≤ ·)).map
      (allocationOf settings (investableEquity settings snapshot) weights)) snapshot.positions
    rw [List.map_map, List.map_map, ((List.perm_insertionSort _ _).map _).sum_eq,
      ((List.perm_insertionSort _ (filteredUniverse input)).map _).sum_eq] at hbalance
    have hheld := held_snapshot settings input
    have htargets := targets_le settings hpos.le hweights
    simp only [Function.comp_def, allocationOf] at hbalance htargets
    rw [hheld] at hbalance
    linarith

end Requests

section Purse

/-- The notional of the intents of a side that are not skipped. -/
def notionalOf (side : Side) (intents : List OrderIntent) : ℚ :=
  ((intents.filter fun intent => intent.side = side ∧ intent.skipped = false).map
    OrderIntent.notionalTry).sum

/-- The buys cost no more than the plan's cash and the sells. -/
def Funded (plan : PortfolioPlan) (intents : List OrderIntent) : Prop :=
  ∀ cash ∈ planCashAvailable plan, notionalOf .buy intents ≤ cash + notionalOf .sell intents

def cashLeft (cash : ℚ) (progress : Progress) : ℚ :=
  cash + notionalOf .sell progress.intents - notionalOf .buy progress.intents

theorem notionalOf_concat (side : Side) (intents : List OrderIntent) (intent : OrderIntent) :
    notionalOf side (intents ++ [intent]) = notionalOf side intents +
      if intent.side = side ∧ intent.skipped = false then intent.notionalTry else 0 := by
  simp only [notionalOf, List.filter_append, List.map_append, List.sum_append]
  congr 1
  split
  · next h => simp [h]
  · next h => simp [h]

end Purse

section Steps

variable {exchange : ExchangeRules} {settings : Settings} {input : BuildInput}

theorem limitPrice_pos {action : RebalanceAction} {rules : SymbolRules} {mark price : ℚ}
    (h : limitPrice settings action rules mark = .ok price) : 0 < price := by
  obtain ⟨quantized, -, hprice⟩ := Runs.bind_ok h
  split at hprice
  · cases hprice
  · next hpos =>
    obtain rfl := Except.ok.inj hprice
    exact not_le.mp hpos

theorem checkOrder_pos {side : Side} {rules : SymbolRules} {price qty : ℚ} {u : Unit}
    (h : checkOrder settings side rules price qty = .ok u) : 0 < qty := by
  unfold checkOrder at h
  split at h
  · cases h
  · next hpos => exact not_le.mp hpos

variable (exchange settings input) in
/-- What an action is sized by: a mark and rules, under which it passes every check. -/
structure Sized (capRemaining : ℚ) (action : RebalanceAction) (price qty : ℚ)
    (rules : SymbolRules) : Prop where
  ruled : (exchange (normalizeSymbol action.symbol)).rules = some rules
  priced : ∃ mark, 0 < mark ∧ limitPrice settings action rules mark = .ok price
  sized : actionQty settings input action (normalizeSymbol action.symbol) rules price
    capRemaining = .ok qty
  checked : checkOrder settings action.side rules price qty = .ok ()

theorem sizeAction_sized {capRemaining : ℚ} {action : RebalanceAction} {price qty : ℚ}
    (h : sizeAction exchange settings input capRemaining action = .ok (price, qty)) :
    ∃ rules, Sized exchange settings input capRemaining action price qty rules := by
  obtain ⟨_, -, h⟩ := Runs.bind_ok h
  split at h
  · cases h
  · next mark _ =>
    split at h
    · cases h
    · next hmark =>
      split at h
      · cases h
      · next rules hrules =>
        obtain ⟨limit, hlimit, h⟩ := Runs.bind_ok h
        obtain ⟨size, hsize, h⟩ := Runs.bind_ok h
        obtain ⟨u, hcheck, h⟩ := Runs.bind_ok h
        obtain ⟨rfl, rfl⟩ := Prod.mk.inj (Except.ok.inj h)
        exact ⟨rules, hrules, ⟨mark, not_le.mp hmark, hlimit⟩, hsize, hcheck⟩

theorem Sized.pos {capRemaining : ℚ} {action : RebalanceAction} {price qty : ℚ}
    {rules : SymbolRules}
    (h : Sized exchange settings input capRemaining action price qty rules) :
    0 < price ∧ 0 < qty := by
  obtain ⟨mark, -, hprice⟩ := h.priced
  exact ⟨limitPrice_pos hprice, checkOrder_pos h.checked⟩

variable (exchange settings input)

/-- What an action comes to when it is built with so much of the cycle's cap left: its
quantity on the grid at its price. -/
def worth (capRemaining : ℚ) (action : RebalanceAction) : ℚ :=
  match sizeAction exchange settings input capRemaining action with
  | .ok (price, qty) => price * qty
  | .error _ => 0

theorem worth_nonneg (capRemaining : ℚ) (action : RebalanceAction) :
    0 ≤ worth exchange settings input capRemaining action := by
  unfold worth
  split
  · next price qty h =>
    obtain ⟨rules, hsized⟩ := sizeAction_sized h
    exact (mul_pos hsized.pos.1 hsized.pos.2).le
  · exact le_refl 0

variable {exchange settings input} {clientOrderId : ClientOrderId}

/-- A step adds what its action is worth to its side, and nothing to the other. -/
theorem stepAction_notional {progress next : Progress} {action : RebalanceAction}
    (h : stepAction exchange settings input clientOrderId progress action = .ok next) (side : Side) :
    notionalOf side next.intents = notionalOf side progress.intents +
      if action.side = side then
        worth exchange settings input progress.buyCycleCapRemaining action
      else 0 := by
  obtain ⟨intent, hintent, hnext⟩ := Runs.bind_ok h
  obtain rfl := Except.ok.inj hnext
  have hadd : (progress.add intent).intents = progress.intents ++ [intent] := rfl
  rw [hadd, notionalOf_concat]
  congr 1
  unfold buildActionIntent at hintent
  unfold worth
  split at hintent
  · next price qty hsize =>
    obtain rfl := Except.ok.inj hintent
    simp [builtIntent, hsize]
  · next reason hsize =>
    obtain rfl := Except.ok.inj hintent
    simp [skippedIntent, hsize]
  · cases hintent

end Steps

section Order

variable (input : BuildInput)

def sells : List RebalanceAction := (orderedActions input).filter fun action => action.side = .sell

def buys : List RebalanceAction := (orderedActions input).filter fun action => action.side = .buy

theorem split_sides {actions : List RebalanceAction} (h : actions.Pairwise ActsBefore) :
    actions = actions.filter (fun action => action.side = .sell) ++
      actions.filter fun action => action.side = .buy := by
  induction h with
  | nil => rfl
  | @cons first rest hfirst _ ih =>
    cases hside : first.side with
    | sell => simpa [hside] using ih
    | buy =>
      have hbuys : ∀ action ∈ rest, action.side = .buy := by
        intro action hin
        have hbefore : _ ∨ _ := Prod.Lex.toLex_le_toLex.mp (hfirst action hin)
        cases haction : action.side with
        | buy => rfl
        | sell => simp [hside, haction, sideRank] at hbefore
      have hnone : rest.filter (fun action => action.side = .sell) = [] := by
        refine List.filter_eq_nil_iff.mpr fun action hin => ?_
        simp [hbuys action hin]
      rw [hnone, List.nil_append] at ih
      simp only [List.filter_cons, hside, hnone]
      simpa using ih

theorem orderedActions_split : orderedActions input = sells input ++ buys input := by
  have hsorted : (input.plan.actions.insertionSort ActsBefore).Pairwise ActsBefore :=
    List.pairwise_insertionSort _ _
  unfold sells buys orderedActions
  cases input.finalMode with
  | observeOnly => rfl
  | reduceRiskOnly => exact split_sides (hsorted.filter _)
  | normal => exact split_sides hsorted

end Order

section Limits

variable (exchange : ExchangeRules) (settings : Settings) {input : BuildInput}

theorem quantizeQty_le (rules : SymbolRules) {qty : ℚ} (h : 0 ≤ qty) :
    quantizeQty rules qty ≤ qty := by
  unfold quantizeQty Money.roundQty Money.quantizeToStep
  split
  · exact le_refl qty
  · next hstep => exact Grid.snap_trunc_le (not_le.mp hstep) h

theorem resolveFeeBufferRatio_mem : 0 ≤ resolveFeeBufferRatio settings ∧
    resolveFeeBufferRatio settings ≤ 1 := by
  unfold resolveFeeBufferRatio
  split
  · next h => exact ⟨le_min h.le zero_le_one, min_le_right _ _⟩
  · exact ⟨le_min (le_max_right _ _) zero_le_one, min_le_right _ _⟩

theorem resolveRoundingBufferTry_nonneg (rules : SymbolRules) {price : ℚ} (h : 0 ≤ price) :
    0 ≤ resolveRoundingBufferTry settings rules price := by
  unfold resolveRoundingBufferTry
  split
  · next hpos => exact hpos.le
  · exact le_max_of_le_left (mul_nonneg h rules.lotSize_nonneg)

theorem foldl_min_le (limits : List ℚ) (target : ℚ) :
    limits.foldl min target ≤ target ∧ ∀ limit ∈ limits, limits.foldl min target ≤ limit := by
  induction limits generalizing target with
  | nil => exact ⟨le_refl target, fun _ h => by cases h⟩
  | cons first limits ih =>
    obtain ⟨hfirst, hrest⟩ := ih (min target first)
    refine ⟨hfirst.trans (min_le_left _ _), fun limit hin => ?_⟩
    rcases List.mem_cons.mp hin with rfl | hin
    · exact hfirst.trans (min_le_right _ _)
    · exact hrest limit hin

/-- A buy spends no more than its target and any limit leave it, less the rounding buffer. -/
theorem maxSpendAfterBuffers_le {capRemaining limit : ℚ}
    (hlimit : limit ∈ upperLimits settings input capRemaining) (action : RebalanceAction)
    (rules : SymbolRules) (price : ℚ) :
    maxSpendAfterBuffers settings input action rules price capRemaining ≤
      max 0 (max 0 (min action.targetNotionalTry limit) -
        resolveRoundingBufferTry settings rules price) := by
  unfold maxSpendAfterBuffers
  obtain ⟨htarget, hlimits⟩ :=
    foldl_min_le (upperLimits settings input capRemaining) action.targetNotionalTry
  have hleast := le_min htarget (hlimits limit hlimit)
  obtain ⟨hratio, hratio_le⟩ := resolveFeeBufferRatio_mem settings
  generalize (upperLimits settings input capRemaining).foldl min action.targetNotionalTry =
    spend at hleast ⊢
  refine max_le_max (le_refl 0) (sub_le_sub_right ?_ _)
  rcases le_total spend 0 with hneg | hpos
  · have hkept := mul_nonpos_of_nonpos_of_nonneg hneg (sub_nonneg.mpr hratio_le)
    exact le_max_of_le_left hkept
  · have hkept := mul_nonneg hpos hratio
    exact le_max_of_le_right (by linarith)

/-- On the grid a buy costs no more than it may spend. -/
theorem buyQty_notional {action : RebalanceAction} {rules : SymbolRules}
    {price capRemaining qty : ℚ} (hprice : 0 < price)
    (h : buyQty settings input action rules price capRemaining = .ok qty) :
    price * qty ≤ maxSpendAfterBuffers settings input action rules price capRemaining := by
  simp only [buyQty] at h
  split at h
  · cases h
  · split at h
    · next hpos =>
      obtain rfl := Except.ok.inj h
      have hgrid := mul_le_mul_of_nonneg_left (quantizeQty_le rules hpos.le) hprice.le
      rwa [mul_div_cancel₀ _ hprice.ne'] at hgrid
    · obtain rfl := Except.ok.inj h
      rw [mul_zero]
      exact le_max_left _ _

theorem buyQty_pos {action : RebalanceAction} {rules : SymbolRules} {price capRemaining qty : ℚ}
    (h : buyQty settings input action rules price capRemaining = .ok qty) (hpos : 0 < qty) :
    qty = quantizeQty rules
      (maxSpendAfterBuffers settings input action rules price capRemaining / price) := by
  simp only [buyQty] at h
  split at h
  · cases h
  · split at h
    · exact (Except.ok.inj h).symm
    · rw [← Except.ok.inj h] at hpos
      exact absurd hpos (lt_irrefl 0)

theorem Sized.notional_le {capRemaining : ℚ} {action : RebalanceAction} {price qty : ℚ}
    {rules : SymbolRules}
    (h : Sized exchange settings input capRemaining action price qty rules)
    (hbuy : action.side = .buy) :
    price * qty ≤ maxSpendAfterBuffers settings input action rules price capRemaining := by
  have hqty := h.sized
  unfold actionQty at hqty
  rw [hbuy] at hqty
  exact buyQty_notional settings h.pos.1 hqty

theorem worth_le {cash : ℚ} (hcash : cash ∈ planCashAvailable input.plan)
    {action : RebalanceAction} (hbuy : action.side = .buy) (capRemaining : ℚ) :
    worth exchange settings input capRemaining action ≤
      max 0 (min action.targetNotionalTry cash) := by
  unfold worth
  split
  · next price qty hsize =>
    obtain ⟨rules, hsized⟩ := sizeAction_sized hsize
    have hlimit : cash ∈ upperLimits settings input capRemaining := by
      simp [upperLimits, Option.mem_def.mp hcash]
    have hbuffer := resolveRoundingBufferTry_nonneg settings rules hsized.pos.1.le
    calc price * qty
        ≤ maxSpendAfterBuffers settings input action rules price capRemaining :=
          hsized.notional_le exchange settings hbuy
      _ ≤ max 0 (max 0 (min action.targetNotionalTry cash) -
            resolveRoundingBufferTry settings rules price) :=
          maxSpendAfterBuffers_le settings hlimit action rules price
      _ ≤ max 0 (min action.targetNotionalTry cash) :=
          max_le (le_max_left _ _) (by linarith)
  · exact le_max_left _ _

end Limits

section Funding

variable (exchange : ExchangeRules) (settings : Settings) (clientOrderId : ClientOrderId)

/-- A buy that is built after another one spends, on the grid, no more than the cash and the
sells leave after those before it. -/
def FitsCash (input : BuildInput) (cash : ℚ) (progress : Progress) (action : RebalanceAction) :
    Prop :=
  0 < notionalOf .buy progress.intents → ∀ rules price qty,
    (exchange (normalizeSymbol action.symbol)).rules = some rules →
    sizeAction exchange settings input progress.buyCycleCapRemaining action = .ok (price, qty) →
    price * quantizeQty rules (maxSpendAfterBuffers settings input action rules price
      progress.buyCycleCapRemaining / price) ≤ cashLeft cash progress

/-- Cash and sells owe nothing, and every buy after the first fits what is left of them. -/
def Covered (input : BuildInput) : Prop :=
  ∀ cash ∈ planCashAvailable input.plan, ∀ afterSells,
    (sells input).foldlM (stepAction exchange settings input clientOrderId) (start settings) =
      .ok afterSells →
    0 ≤ cashLeft cash afterSells ∧
      MeetsM (stepAction exchange settings input clientOrderId)
        (FitsCash exchange settings input cash) afterSells (buys input)

variable {exchange settings clientOrderId}

/-- A buy is paid from the purse. -/
theorem buy_pays {input : BuildInput} {progress next : Progress} {action : RebalanceAction}
    (hbuy : action.side = .buy)
    (h : stepAction exchange settings input clientOrderId progress action = .ok next) (cash : ℚ) :
    cashLeft cash next = cashLeft cash progress -
      worth exchange settings input progress.buyCycleCapRemaining action := by
  have hsell := stepAction_notional h .sell
  have hcost := stepAction_notional h .buy
  rw [if_neg (by simp [hbuy]), add_zero] at hsell
  rw [if_pos hbuy] at hcost
  rw [cashLeft, cashLeft, hsell, hcost]
  ring

/-- A buy is worth no more than what is left exactly if it fits: the first one is cut to the
cash by its own limits. -/
theorem fitsCash_iff {input : BuildInput} {cash : ℚ} (hcash : cash ∈ planCashAvailable input.plan)
    {progress : Progress} {action : RebalanceAction} (hbuy : action.side = .buy)
    (hsold : 0 ≤ notionalOf .sell progress.intents) (hspent : 0 ≤ notionalOf .buy progress.intents)
    (hleft : 0 ≤ cashLeft cash progress) :
    FitsCash exchange settings input cash progress action ↔
      worth exchange settings input progress.buyCycleCapRemaining action ≤
        cashLeft cash progress := by
  by_cases hlater : 0 < notionalOf .buy progress.intents
  · unfold worth
    cases hsize : sizeAction exchange settings input progress.buyCycleCapRemaining action with
    | error halt =>
      refine iff_of_true (fun _ rules price qty _ hother => ?_) hleft
      rw [hsize] at hother
      cases hother
    | ok sized =>
      obtain ⟨price, qty⟩ := sized
      obtain ⟨rules, hsized⟩ := sizeAction_sized hsize
      have hqty := hsized.sized
      unfold actionQty at hqty
      rw [hbuy] at hqty
      have hgrid := buyQty_pos settings hqty hsized.pos.2
      dsimp only
      constructor
      · intro hfits
        have hspends := hfits hlater rules price qty hsized.ruled hsize
        rwa [← hgrid] at hspends
      · intro hspends _ known limit size hknown hother
        obtain rfl := Option.some.inj (hsized.ruled.symm.trans hknown)
        rw [hsize] at hother
        obtain ⟨rfl, rfl⟩ := Prod.mk.inj (Except.ok.inj hother)
        rwa [← hgrid]
  · have hnone : notionalOf .buy progress.intents = 0 := le_antisymm (not_lt.mp hlater) hspent
    have hall : cash ≤ cashLeft cash progress := by
      rw [cashLeft, hnone, sub_zero]
      exact le_add_of_nonneg_right hsold
    exact iff_of_true (fun h => absurd h hlater)
      ((worth_le exchange settings hcash hbuy progress.buyCycleCapRemaining).trans
        (max_le hleft ((min_le_right _ _).trans hall)))

theorem stepAction_nonneg {input : BuildInput} {progress next : Progress}
    {action : RebalanceAction}
    (h : stepAction exchange settings input clientOrderId progress action = .ok next)
    {side : Side} (hs : 0 ≤ notionalOf side progress.intents) :
    0 ≤ notionalOf side next.intents := by
  rw [stepAction_notional h side]
  refine add_nonneg hs ?_
  split
  · exact worth_nonneg exchange settings input progress.buyCycleCapRemaining action
  · exact le_refl 0

theorem notional_run {input : BuildInput} {actions : List RebalanceAction} {final : Progress}
    (h : actions.foldlM (stepAction exchange settings input clientOrderId) (start settings) =
      .ok final) (side : Side) : 0 ≤ notionalOf side final.intents :=
  Runs.foldlM_ok_induct (f := stepAction exchange settings input clientOrderId)
    (I := fun _ progress => 0 ≤ notionalOf side progress.intents)
    (fun _ _ _ _ hs hstep => stepAction_nonneg hstep hs) actions (le_refl _) h

/-- The intents are those of a run over the actions. -/
theorem buildIntents_run {input : BuildInput} {intents : List OrderIntent}
    (h : buildIntents exchange settings input clientOrderId = .ok intents) :
    ∃ final, (orderedActions input).foldlM (stepAction exchange settings input clientOrderId)
      (start settings) = .ok final ∧ final.intents = intents := by
  unfold buildIntents at h
  cases hrun : (orderedActions input).foldlM (stepAction exchange settings input clientOrderId)
      (start settings) with
  | error message =>
    rw [hrun] at h
    cases h
  | ok final =>
    rw [hrun] at h
    exact ⟨final, rfl, Except.ok.inj h⟩

theorem built_funded_iff {input : BuildInput} {intents : List OrderIntent}
    (h : buildIntents exchange settings input clientOrderId = .ok intents) :
    Funded input.plan intents ↔ Covered exchange settings clientOrderId input := by
  obtain ⟨final, hrun, rfl⟩ := buildIntents_run h
  rw [orderedActions_split, List.foldlM_append] at hrun
  obtain ⟨afterSells, hsells, hbuys⟩ := Runs.bind_ok hrun
  refine forall₂_congr fun cash hcash => ?_
  have hside (action : RebalanceAction) (hin : action ∈ buys input) : action.side = .buy :=
    of_decide_eq_true (List.mem_filter.mp hin).2
  have hpaid := Runs.paid_iff (f := stepAction exchange settings input clientOrderId)
    (I := fun progress => ∀ side, 0 ≤ notionalOf side progress.intents)
    (fun action hin progress next hs hnext =>
      ⟨buy_pays (hside action hin) hnext cash, fun side => stepAction_nonneg hnext (hs side)⟩)
    (fun progress action =>
      worth_nonneg exchange settings input progress.buyCycleCapRemaining action)
    (fun action hin progress hs => fitsCash_iff hcash (hside action hin) (hs .sell) (hs .buy))
    (notional_run hsells) hbuys
  have hleft : 0 ≤ cashLeft cash final ↔ notionalOf .buy final.intents ≤
      cash + notionalOf .sell final.intents := by rw [cashLeft, sub_nonneg]
  rw [← hleft, hpaid]
  constructor
  · intro hcovered other hother
    obtain rfl := Except.ok.inj (hsells.symm.trans hother)
    exact hcovered
  · intro hcovered
    exact hcovered afterSells hsells

theorem plan_funded_iff (exchange : ExchangeRules) (settings : Settings)
    (clientOrderId : ClientOrderId) (cycleId : String) (rulesUnavailable : List (String × String))
    (input : PlanInput) :
    (∀ plan intents, planCycle exchange settings clientOrderId cycleId rulesUnavailable input =
        .ok (plan, intents) → Funded plan intents) ↔
      ∀ plan intents, planCycle exchange settings clientOrderId cycleId rulesUnavailable input =
        .ok (plan, intents) → Covered exchange settings clientOrderId
          ⟨cycleId, plan, input.markPricesTry, input.finalMode, rulesUnavailable⟩ := by
  refine forall₃_congr fun plan intents h => ?_
  obtain ⟨built, -, h⟩ := Runs.bind_ok h
  obtain ⟨ordered, hordered, h⟩ := Runs.bind_ok h
  obtain ⟨rfl, rfl⟩ := Prod.mk.inj (Except.ok.inj h)
  exact built_funded_iff (Runs.mapError_ok hordered)

theorem satoshi_nonneg : (0 : ℚ) ≤ 1 / 10 ^ 8 := by norm_num

def heldRules : ExchangeRules := fun symbol =>
  if symbol = "AAATRY" then ⟨"missing", none⟩
  else
    ⟨"ok", some
      { tickSize := 1 / 100
        lotSize := 1 / 10 ^ 8
        minNotionalTry := 10
        tickSize_nonneg := by norm_num
        lotSize_nonneg := satoshi_nonneg }⟩

/-- A thousand in cash and twenty of a symbol that has no rules, for two more symbols. -/
def heldCycle : Except CycleError (PortfolioPlan × List OrderIntent) :=
  planCycle heldRules { notionalCapTryPerCycle := 10000, maxOrdersPerCycle := 10 }
    (fun _ _ _ _ _ _ => "") "c" []
    { symbols := ["AAATRY", "BBBTRY", "CCCTRY"]
      markPricesTry := ⟨[("AAATRY", 100), ("BBBTRY", 100), ("CCCTRY", 100)], by decide⟩
      balances := [⟨"TRY", 1000⟩, ⟨"AAA", 20⟩]
      nowUtc := ⟨0, true⟩ }

theorem sell_not_built_unfunded :
    ¬ ∀ (exchange : ExchangeRules) (settings : Settings) (clientOrderId : ClientOrderId)
        (cycleId : String) (rulesUnavailable : List (String × String)) (input : PlanInput)
        (plan : PortfolioPlan) (intents : List OrderIntent),
      planCycle exchange settings clientOrderId cycleId rulesUnavailable input =
        .ok (plan, intents) → Funded plan intents := by
  intro h
  have hover : heldCycle.toOption.any (fun result =>
      decide (planCashAvailable result.1 = some 1000) &&
        decide (1000 + notionalOf .sell result.2 < notionalOf .buy result.2)) = true := by
    decide +kernel
  cases hcycle : heldCycle with
  | error error =>
    rw [hcycle] at hover
    cases hover
  | ok result =>
    rw [hcycle] at hover
    obtain ⟨hcash, hlt⟩ := Bool.and_eq_true_iff.mp hover
    have hfunded := h _ _ _ _ _ _ result.1 result.2 hcycle 1000 (of_decide_eq_true hcash)
    exact absurd hfunded (not_le.mpr (of_decide_eq_true hlt))

/-- The buys take no more than their targets, each cut to the plan's cash. -/
theorem bought_le {input : BuildInput} {intents : List OrderIntent}
    (h : buildIntents exchange settings input clientOrderId = .ok intents) {cash : ℚ}
    (hcash : cash ∈ planCashAvailable input.plan) :
    notionalOf .buy intents ≤
      ((buys input).map fun action => max 0 (min action.targetNotionalTry cash)).sum := by
  obtain ⟨final, hrun, rfl⟩ := buildIntents_run h
  refine Runs.foldlM_ok_induct (f := stepAction exchange settings input clientOrderId)
    (I := fun taken progress => notionalOf .buy progress.intents ≤
      ((taken.filter fun action => action.side = .buy).map fun action =>
        max 0 (min action.targetNotionalTry cash)).sum) ?_ _ (le_refl _) hrun
  intro taken action progress next htaken hstep
  rw [stepAction_notional hstep .buy, List.filter_append, List.map_append, List.sum_append]
  refine add_le_add htaken ?_
  split
  · next hbuy =>
    have hworth := worth_le exchange settings hcash hbuy
      progress.buyCycleCapRemaining
    simpa [hbuy] using hworth
  · next hside => simp [hside]

theorem notional_nonneg {input : BuildInput} {intents : List OrderIntent}
    (h : buildIntents exchange settings input clientOrderId = .ok intents) (side : Side) :
    0 ≤ notionalOf side intents := by
  obtain ⟨final, hrun, rfl⟩ := buildIntents_run h
  exact notional_run hrun side

/-- Buys whose targets, each cut to the cash, fit into the cash and the sells are funded: one
buy alone always is. -/
theorem targets_funded {input : BuildInput} {intents : List OrderIntent}
    (h : buildIntents exchange settings input clientOrderId = .ok intents)
    (hfits : ∀ cash ∈ planCashAvailable input.plan,
      ((buys input).map fun action => max 0 (min action.targetNotionalTry cash)).sum ≤
        cash + notionalOf .sell intents) : Funded input.plan intents :=
  fun cash hcash => (bought_le h hcash).trans (hfits cash hcash)

theorem single_buy_funded {input : BuildInput} {intents : List OrderIntent}
    (h : buildIntents exchange settings input clientOrderId = .ok intents)
    (hsingle : (buys input).length ≤ 1)
    (hcash : ∀ cash ∈ planCashAvailable input.plan, 0 ≤ cash) : Funded input.plan intents := by
  refine targets_funded h fun cash hin => ?_
  have hnonneg := hcash cash hin
  refine le_add_of_le_of_nonneg ?_ (notional_nonneg h .sell)
  match hbuys : buys input with
  | [] => exact hnonneg
  | [action] =>
    rw [List.map_singleton, List.sum_singleton]
    exact max_le hnonneg (min_le_right _ _)
  | _ :: _ :: _ =>
    rw [hbuys] at hsingle
    simp at hsingle

end Funding

end PlanFunding
