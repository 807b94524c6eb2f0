import Btcbot.CycleCap

/-!
# The aggressive plan

A pass plans a share for every symbol that it keeps and for no other, so at the end of the
loop the plans are those of the symbols kept. Each is an order the exchange's rules allow,
and with the fees set aside for them they leave the cash target untouched.
-/
namespace AggressivePlan

open PyData AllocationService DecisionPipeline CycleCap
open Stage4Execute (ExchangeRules quantizePrice quantizeQty gridStep quantumOf)

section Rules

theorem stepOr_pos (step : Option ℚ) (scale : ℤ) : 0 < stepOr step scale := by
  unfold stepOr
  split
  · split
    · assumption
    · exact zpow_pos (by norm_num) _
  · exact zpow_pos (by norm_num) _

/-- A price and a quantity on the grid, worth no less than the minimum. -/
structure Placeable (rules : ExchangeRules) (price qty : ℚ) : Prop where
  tick : Grid.OnGrid rules.tickSize price
  step : Grid.OnGrid rules.stepSize qty
  price_pos : 0 < price
  qty_pos : 0 < qty
  min : rules.minNotionalTry ≤ price * qty

theorem planShare_placeable {deployBudget weight mark : ℚ} {pair : PairInfo} {plan : ℚ × ℚ × ℚ}
    (h : planShare deployBudget weight mark pair = .ok plan) :
    Placeable (buildExchangeRules pair) plan.1 plan.2.1 := by
  obtain ⟨hprice, hqty, hpriced, hquantized, -, hmin⟩ := planShare_cases h
  have htick : gridStep (buildExchangeRules pair).tickSize
      (buildExchangeRules pair).pricePrecision = (buildExchangeRules pair).tickSize :=
    if_pos (stepOr_pos _ _)
  have hstep : gridStep (buildExchangeRules pair).stepSize
      (buildExchangeRules pair).qtyPrecision = (buildExchangeRules pair).stepSize :=
    if_pos (stepOr_pos _ _)
  constructor
  · rw [hpriced, quantizePrice, htick]
    exact ⟨_, rfl⟩
  · rw [hquantized, quantizeQty, hstep]
    exact ⟨_, rfl⟩
  · exact hprice
  · exact hqty
  · exact hmin

end Rules

section Passes

variable (service : Service) (input : CycleInput) (scores : Mapping ℚ)

/-- A symbol keeps its place in the list, or loses it each time its share fails. -/
theorem foldl_kept (sharing : Sharing) (kept symbols : List String) (symbol : String) :
    (symbols.foldl (shareSymbol service input scores kept) sharing).kept.count symbol =
      sharing.kept.count symbol -
        if (shareOf service input scores kept symbol).isOk then 0 else symbols.count symbol := by
  induction symbols generalizing sharing with
  | nil => simp
  | cons first symbols ih =>
    rw [List.foldl_cons, ih]
    cases hshare : shareOf service input scores kept first with
    | error reason =>
      have hnext : (shareSymbol service input scores kept sharing first).kept =
          sharing.kept.erase first := by
        simp [shareSymbol, hshare]
      rw [hnext, List.count_erase, List.count_cons]
      by_cases hsame : first = symbol
      · subst hsame
        simp only [hshare, Except.isOk, Except.toBool, Bool.false_eq_true, if_false, beq_self_eq_true,
          if_true]
        omega
      · have hne : (first == symbol) = false := beq_false_of_ne hsame
        simp [hne]
    | ok plan =>
      have hnext : (shareSymbol service input scores kept sharing first).kept = sharing.kept := by
        simp [shareSymbol, hshare]
      rw [hnext, List.count_cons]
      by_cases hsame : first = symbol
      · subst hsame
        simp [hshare, Except.isOk, Except.toBool]
      · have hne : (first == symbol) = false := beq_false_of_ne hsame
        simp [hne]

/-- The plan of a symbol is its share, when the share does not fail. -/
theorem foldl_plans (sharing : Sharing) (kept symbols : List String) (symbol : String) :
    (symbols.foldl (shareSymbol service input scores kept) sharing).plans[symbol]? =
      if symbol ∈ symbols then
        (shareOf service input scores kept symbol).toOption.or sharing.plans[symbol]?
      else sharing.plans[symbol]? := by
  induction symbols generalizing sharing with
  | nil => simp
  | cons first symbols ih =>
    rw [List.foldl_cons, ih]
    cases hshare : shareOf service input scores kept first with
    | error reason =>
      have hnext : (shareSymbol service input scores kept sharing first).plans =
          sharing.plans := by
        simp [shareSymbol, hshare]
      rw [hnext]
      by_cases hsame : symbol = first
      · subst hsame
        simp [hshare, Except.toOption]
      · simp [hsame]
    | ok plan =>
      have hnext : (shareSymbol service input scores kept sharing first).plans[symbol]? =
          if first = symbol then some plan else sharing.plans[symbol]? := by
        simp [shareSymbol, hshare]
      rw [hnext]
      by_cases hsame : symbol = first
      · subst hsame
        simp [hshare, Except.toOption]
      · simp [hsame, Ne.symm hsame]

/-- A pass plans what it keeps. -/
theorem sharePass_plans (sharing : Sharing) (symbol : String) :
    (sharePass service input scores sharing).plans[symbol]? =
      if symbol ∈ sharing.kept then
        (shareOf service input scores sharing.kept symbol).toOption
      else none := by
  rw [sharePass, foldl_plans]
  simp

theorem sharePass_kept (sharing : Sharing) (symbol : String) :
    symbol ∈ (sharePass service input scores sharing).kept ↔
      (sharePass service input scores sharing).plans[symbol]?.isSome := by
  rw [sharePass_plans, sharePass, ← List.count_pos_iff, foldl_kept]
  cases hshare : shareOf service input scores sharing.kept symbol with
  | error reason => simp [Except.isOk, Except.toBool, Except.toOption]
  | ok plan => simp [Except.isOk, Except.toBool, Except.toOption, List.count_pos_iff]

/-- At the end the plans are those of the symbols kept. -/
theorem share_kept (selectedUniverse : List String) (symbol : String) :
    symbol ∈ (share service input scores selectedUniverse).kept ↔
      (share service input scores selectedUniverse).plans[symbol]?.isSome := by
  rw [share]
  cases hsymbols : eligible input selectedUniverse with
  | nil => simp [WhileLoop.run]
  | cons first symbols =>
    -- the first pass is made, and every pass leaves the plans of what it keeps
    have hfirst : WhileLoop.run (fun sharing : Sharing => sharing.again && sharing.kept ≠ [])
        (sharePass service input scores) ((first :: symbols).length + 1)
        { kept := first :: symbols } =
      WhileLoop.run (fun sharing : Sharing => sharing.again && sharing.kept ≠ [])
        (sharePass service input scores) (first :: symbols).length
        (sharePass service input scores { kept := first :: symbols }) := rfl
    rw [hfirst]
    exact WhileLoop.run_induct
      (I := fun _ (sharing : Sharing) => symbol ∈ sharing.kept ↔ sharing.plans[symbol]?.isSome)
      (fun _ sharing _ _ => sharePass_kept service input scores sharing symbol) _ 0 _
      (sharePass_kept service input scores _ symbol)

theorem sharePass_planned (sharing : Sharing) (symbol : String) (plan : ℚ × ℚ × ℚ)
    (h : (sharePass service input scores sharing).plans[symbol]? = some plan) :
    ∃ kept, shareOf service input scores kept symbol = .ok plan := by
  rw [sharePass_plans] at h
  split at h
  · refine ⟨sharing.kept, ?_⟩
    cases hshare : shareOf service input scores sharing.kept symbol with
    | error reason =>
      rw [hshare] at h
      cases h
    | ok found =>
      rw [hshare] at h
      exact congrArg Except.ok (Option.some.inj h)
  · cases h

/-- Every plan is the share of its symbol at some pass. -/
theorem share_planned (selectedUniverse : List String) (symbol : String) (plan : ℚ × ℚ × ℚ) :
    (share service input scores selectedUniverse).plans[symbol]? = some plan →
      ∃ kept, shareOf service input scores kept symbol = .ok plan :=
  WhileLoop.run_induct
    (I := fun _ (sharing : Sharing) => sharing.plans[symbol]? = some plan →
      ∃ kept, shareOf service input scores kept symbol = .ok plan)
    (fun _ sharing _ _ => sharePass_planned service input scores sharing symbol plan) _ 0 _
    (by simp)

/-- The order of a plan is one that the rules of its pair allow. -/
def Allowed (order : Order) : Prop :=
  ∃ pair, (pairInfoBySymbol input.pairInfo)[order.symbol]? = some pair ∧
    Placeable (buildExchangeRules pair) order.price order.qty

end Passes

section Plan

variable (service : Service) (input : CycleInput) (scores : Mapping ℚ)

theorem planned_allowed (selectedUniverse : List String) {entry : String × ℚ × ℚ × ℚ}
    (h : entry ∈ (share service input scores selectedUniverse).plans.toList) :
    ∃ pair, (pairInfoBySymbol input.pairInfo)[entry.1]? = some pair ∧
      Placeable (buildExchangeRules pair) entry.2.1 entry.2.2.1 := by
  obtain ⟨kept, hshare⟩ := share_planned service input scores selectedUniverse entry.1 entry.2
    ((Dict.mem_toList _ entry).mp h)
  unfold shareOf at hshare
  cases hpair : (pairInfoBySymbol input.pairInfo)[entry.1]? with
  | none =>
    rw [hpair] at hshare
    cases hshare
  | some pair =>
    rw [hpair] at hshare
    exact ⟨pair, rfl, planShare_placeable hshare⟩

/-- The orders selected and deferred are those of the plans. -/
theorem report_orders (selectedUniverse : List String) :
    ((runAggressivePath service input scores selectedUniverse).orderRequests ++
      (runAggressivePath service input scores selectedUniverse).deferredOrderRequests).Perm
      ((share service input scores selectedUniverse).plans.toList.mapIdx fun index entry =>
        aggressiveOrder input index entry.1 entry.2) := by
  simp only [runAggressivePath, selectOrdersForCycle, List.take_append_drop]
  exact List.perm_insertionSort RankedBefore _

/-- The fees on the deploy budget and the budget itself are what is investable. -/
theorem deployBudget_fees :
    (1 + resolveFeeBufferRatio service.settings.feeBufferRatio
        service.settings.allocationFeeBufferBps) * aggressiveDeployBudget service input =
      aggressiveInvestable service input := by
  have hfee := feeBuffer_nonneg service
  rw [aggressiveDeployBudget, mul_div_cancel₀]
  linarith

/-- A multiplier of at most one leaves the target of the cash above it. -/
theorem investable_le (hmultiplier : input.budgetNotionalMultiplier ≤ 1)
    (hcash : service.settings.tryCashTarget ≤ aggressiveCash input) :
    aggressiveInvestable service input ≤
      aggressiveCash input - service.settings.tryCashTarget := by
  have hfree : 0 ≤ aggressiveCash input - service.settings.tryCashTarget := sub_nonneg.mpr hcash
  rw [aggressiveInvestable, max_eq_right hfree]
  exact mul_le_of_le_one_right hfree (max_le zero_le_one hmultiplier)

/-- What the orders are worth is what the report says is planned. -/
theorem report_value (selectedUniverse : List String) :
    valueOf ((runAggressivePath service input scores selectedUniverse).orderRequests ++
        (runAggressivePath service input scores selectedUniverse).deferredOrderRequests) =
      (runAggressivePath service input scores selectedUniverse).plannedTotalTry := by
  have hperm := (report_orders service input scores selectedUniverse).map orderValue
  have hbuys := (share_funded service input scores selectedUniverse
    (aggressiveDeployBudget_nonneg service input)).buys
  rw [valueOf, hperm.sum_eq]
  exact (shares_value input _ fun entry hentry =>
    hbuys entry.1 entry.2 ((Dict.mem_toList _ entry).mp hentry)).2

theorem report_allowed (selectedUniverse : List String) (order : Order)
    (h : order ∈ (runAggressivePath service input scores selectedUniverse).orderRequests ++
      (runAggressivePath service input scores selectedUniverse).deferredOrderRequests) :
    Allowed input order := by
  have hin := (report_orders service input scores selectedUniverse).mem_iff.mp h
  obtain ⟨index, hindex, rfl⟩ := List.mem_mapIdx.mp hin
  obtain ⟨pair, hpair, hplaceable⟩ :=
    planned_allowed service input scores selectedUniverse (List.getElem_mem hindex)
  exact ⟨pair, hpair, hplaceable⟩

/-- The sharing loop ends, with the plans of the symbols kept; the orders are allowed by the
rules, worth no more than the budget, and leave the cash target with their fees. -/
theorem aggressive_inside_budget (selectedUniverse : List String)
    (hmultiplier : input.budgetNotionalMultiplier ≤ 1) :
    let sharing := share service input scores selectedUniverse
    let report := runAggressivePath service input scores selectedUniverse
    let feeBuffer := resolveFeeBufferRatio service.settings.feeBufferRatio
      service.settings.allocationFeeBufferBps
    (sharing.again = false ∨ sharing.kept = []) ∧
    (∀ symbol, symbol ∈ sharing.kept ↔ sharing.plans[symbol]?.isSome) ∧
    (∀ order ∈ report.orderRequests ++ report.deferredOrderRequests, Allowed input order) ∧
    valueOf (report.orderRequests ++ report.deferredOrderRequests) = report.plannedTotalTry ∧
    report.plannedTotalTry ≤ report.deployBudgetTry ∧
    (service.settings.tryCashTarget ≤ report.cashTry →
      service.settings.tryCashTarget ≤
        report.cashTry - (1 + feeBuffer) * report.plannedTotalTry) := by
  intro sharing report feeBuffer
  have hfee : 0 ≤ feeBuffer := feeBuffer_nonneg service
  have hcost : report.plannedTotalTry ≤ report.deployBudgetTry :=
    (share_funded service input scores selectedUniverse
      (aggressiveDeployBudget_nonneg service input)).cost
  refine ⟨?_, share_kept service input scores selectedUniverse,
    report_allowed service input scores selectedUniverse,
    report_value service input scores selectedUniverse, hcost, fun hcash => ?_⟩
  · have hends := share_ends service input scores selectedUniverse
    rcases Bool.and_eq_false_iff.mp hends with hstop | hnone
    · exact .inl hstop
    · exact .inr (not_not.mp (of_decide_eq_false hnone))
  · have hspent : (1 + feeBuffer) * report.plannedTotalTry ≤
        aggressiveCash input - service.settings.tryCashTarget := by
      calc (1 + feeBuffer) * report.plannedTotalTry
          ≤ (1 + feeBuffer) * report.deployBudgetTry := by
            apply mul_le_mul_of_nonneg_left hcost
            linarith
        _ = aggressiveInvestable service input := deployBudget_fees service input
        _ ≤ aggressiveCash input - service.settings.tryCashTarget :=
            investable_le service input hmultiplier hcash
    exact le_sub_comm.mp hspent

/-- A universe that lists a symbol twice, and one that has no pair. -/
theorem aggressive_inside_budget_sample :
    let service := baseline { symbols := [] }
    let input := flatCycle bitcoin (1 / 2)
    let report := runAggressivePath service input ⟨[("BTCTRY", 1)], by decide⟩
      ["BTCTRY", "ETHTRY", "BTCTRY"]
    report.orderRequests.length = 1 ∧ report.plannedTotalTry ≤ report.deployBudgetTry := by
  intro service input report
  refine ⟨by decide +kernel, ?_⟩
  exact (aggressive_inside_budget service input ⟨[("BTCTRY", 1)], by decide⟩
    ["BTCTRY", "ETHTRY", "BTCTRY"] (by decide +kernel)).2.2.2.2.1

end Plan

end AggressivePlan
