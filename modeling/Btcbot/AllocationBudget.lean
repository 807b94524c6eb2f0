import Btcbot.CycleCap

/-!
# Allocation inside the cash budget

What the BUY actions take and what is left of the deploy budget make it up, so the actions
and the fees set aside for them are within what a cycle may invest. Every intent gets one
decision, and an action is what an accepted or scaled decision says.
-/
namespace AllocationBudget

open PyData AllocationService
open CycleCap (sizeNotional_ok limitsOf_cases sizeIntent_cases runIntents_spent
  resolveFeeBufferRatio_nonneg)

section Sizing

variable {knobs : AllocationKnobs} {positions : Mapping PositionSummary} {prices : Mapping ℚ}

/-- A notional that is allocated is the tightest limit, or the minimum above it. -/
theorem sizeNotional_max {requested allocated : ℚ} {limits : Limits} {reason : ReasonCode}
    (h : sizeNotional knobs requested limits = .ok (allocated, reason)) :
    allocated = max (tightest requested limits) knobs.minOrderNotionalTry := by
  simp only [sizeNotional] at h
  split at h
  · next hbelow =>
    split at h
    · obtain ⟨rfl, -⟩ := Prod.mk.inj (Except.ok.inj h)
      exact (max_eq_right hbelow.le).symm
    · cases h
  · next hmin =>
    obtain ⟨rfl, -⟩ := Prod.mk.inj (Except.ok.inj h)
    exact (max_eq_left (not_lt.mp hmin)).symm

/-- A BUY is sized within what is left of the deploy budget. -/
theorem sizeIntent_buy {progress : Progress} {intent : Intent} {allocated markPrice : ℚ}
    {reason : ReasonCode}
    (h : sizeIntent knobs positions prices progress intent = .ok (allocated, markPrice, reason))
    (hbuy : intent.side = .buy) : allocated ≤ progress.remainingDeployBudgetTry := by
  obtain ⟨requested, limits, -, -, hlimits, hsized⟩ := sizeIntent_cases h
  obtain ⟨-, -, ⟨-, rfl⟩ | ⟨hsell, -⟩⟩ := limitsOf_cases hlimits
  · exact (sizeNotional_ok hsized).2 .cashTarget _ List.mem_cons_self (by decide)
  · rw [hbuy] at hsell
    cases hsell

end Sizing

section Booking

variable {knobs : AllocationKnobs} {positions : Mapping PositionSummary} {prices : Mapping ℚ}

/-- The total of the BUY actions. -/
def buyTotal (actions : List SizedAction) : ℚ :=
  ((actions.filter fun action => action.side = .buy).map SizedAction.notionalTry).sum

theorem buyTotal_concat (actions : List SizedAction) (action : SizedAction) :
    buyTotal (actions ++ [action]) =
      buyTotal actions + if action.side = .buy then action.notionalTry else 0 := by
  by_cases h : action.side = .buy <;> simp [buyTotal, h]

/-- The action of a decision that is accepted or scaled. -/
structure IsActionOf (action : SizedAction) (decision : AllocationDecision) : Prop where
  symbol : action.symbol = decision.symbol
  side : action.side = decision.side
  notional : decision.allocatedNotionalTry = some action.notionalTry
  qty : decision.allocatedQty = some action.qty
  rationale : action.rationale = "allocation:" ++ decision.reason.text
  strategy : action.strategyId = decision.strategyId
  index : action.intentIndex = decision.intentIndex

/-- The intent at an index, as its decision names it. -/
def requestOf (index : ℕ) (intent : Intent) :
    ℕ × String × Side × IntentType × Option ℚ × String :=
  (index, canonicalSymbol intent.symbol, intent.side, intent.intentType,
    intent.targetNotionalTry, intent.strategyId)

def decidedRequest (decision : AllocationDecision) :
    ℕ × String × Side × IntentType × Option ℚ × String :=
  (decision.intentIndex, decision.symbol, decision.side, decision.intentType,
    decision.requestedNotionalTry, decision.strategyId)

/-- The loop over the intents, after those taken. -/
structure Booked (deployBudget : ℚ) (taken : List Intent) (progress : Progress) : Prop where
  left : 0 ≤ progress.remainingDeployBudgetTry
  booked : buyTotal progress.actions + progress.remainingDeployBudgetTry = deployBudget
  index : progress.intentIndex = taken.length
  decided : progress.decisions.map decidedRequest = taken.mapIdx requestOf
  actions : List.Forall₂ IsActionOf progress.actions
    (progress.decisions.filter fun decision => decision.status ≠ .rejected)

theorem left_allocateIntent (progress : Progress) (intent : Intent)
    (hs : 0 ≤ progress.remainingDeployBudgetTry) :
    0 ≤ (allocateIntent knobs positions prices progress intent).remainingDeployBudgetTry := by
  unfold allocateIntent
  cases hsized : sizeIntent knobs positions prices progress intent with
  | error reason => exact hs
  | ok sized =>
    dsimp only
    split
    · next hbuy => exact sub_nonneg.mpr (sizeIntent_buy hsized hbuy)
    · exact hs

theorem booked_allocateIntent {deployBudget : ℚ} (taken : List Intent) (intent : Intent)
    (progress : Progress) (hs : Booked deployBudget taken progress) :
    Booked deployBudget (taken ++ [intent])
      (allocateIntent knobs positions prices progress intent) := by
  have hleft := @left_allocateIntent knobs positions prices progress intent hs.left
  unfold allocateIntent at hleft ⊢
  cases hsized : sizeIntent knobs positions prices progress intent with
  | error reason =>
    constructor
    · exact hs.left
    · exact hs.booked
    · simp [hs.index]
    · simp [hs.decided, List.mapIdx_concat, decidedRequest, requestOf, decisionOf, hs.index]
    · simpa [List.filter_append, decisionOf] using hs.actions
  | ok sized =>
    obtain ⟨allocated, markPrice, reason⟩ := sized
    rw [hsized] at hleft
    constructor
    · exact hleft
    · have hbooked := hs.booked
      rw [buyTotal_concat]
      by_cases hbuy : intent.side = .buy
      · simp only [actionOf, hbuy, if_true]
        linarith
      · simp only [actionOf, hbuy, if_false, add_zero]
        exact hbooked
    · simp [hs.index]
    · simp [hs.decided, List.mapIdx_concat, decidedRequest, requestOf, decisionOf, hs.index]
    · have hkept : [decisionOf progress intent (some allocated) (some (allocated / markPrice))
          (if reason = .ok then .accepted else .scaled) reason].filter
            (fun decision => decision.status ≠ .rejected) =
          [decisionOf progress intent (some allocated) (some (allocated / markPrice))
            (if reason = .ok then .accepted else .scaled) reason] := by
        split <;> rfl
      dsimp only
      rw [List.filter_append, hkept]
      exact List.rel_append hs.actions (.cons ⟨rfl, rfl, rfl, rfl, rfl, rfl, rfl⟩ .nil)

theorem runIntents_booked {deployBudget : ℚ} (hdeploy : 0 ≤ deployBudget)
    (intents : List Intent) :
    Booked deployBudget intents (runIntents knobs positions prices deployBudget intents) := by
  refine Runs.run_induct booked_allocateIntent _ intents ⟨hdeploy, ?_, rfl, rfl, .nil⟩
  exact zero_add deployBudget

end Booking

section Budgets

variable (knobs : AllocationKnobs)

/-- No mode of use invests less than nothing, or more than is investable. -/
theorem resolveInvestableBudget_bounds {investable : ℚ} (h : 0 ≤ investable) :
    0 ≤ resolveInvestableBudget investable knobs ∧
      resolveInvestableBudget investable knobs ≤ investable := by
  have hfraction : 0 ≤ min (max knobs.investableUsageFraction 0) 1 :=
    le_min (le_max_right _ _) zero_le_one
  have hmode (fraction cap : Prop) [Decidable fraction] [Decidable cap] :
      (if fraction then investable * min (max knobs.investableUsageFraction 0) 1
        else if cap then min investable (max knobs.maxTryPerCycle 0)
        else investable) ∈ Set.Icc 0 investable := by
    split
    · exact ⟨mul_nonneg h hfraction, mul_le_of_le_one_right h (min_le_right _ _)⟩
    · split
      · exact ⟨le_min h (le_max_right _ _), min_le_left _ _⟩
      · exact ⟨h, le_refl _⟩
  unfold resolveInvestableBudget
  dsimp only
  split
  · exact ⟨le_min (hmode _ _).1 (le_max_right _ _), (min_le_left _ _).trans (hmode _ _).2⟩
  · exact hmode _ _

theorem budgetsOf_bounds (cashTry : ℚ) :
    0 ≤ (budgetsOf knobs cashTry).2.2 ∧
      (1 + resolveFeeBufferRatio knobs.feeBufferRatio knobs.feeBufferBps) *
        (budgetsOf knobs cashTry).2.2 = (budgetsOf knobs cashTry).2.1 ∧
      (budgetsOf knobs cashTry).2.1 ≤ max (cashTry - knobs.targetTryCash) 0 := by
  have hfee := resolveFeeBufferRatio_nonneg knobs.feeBufferRatio knobs.feeBufferBps
  have hpos : 0 < 1 + resolveFeeBufferRatio knobs.feeBufferRatio knobs.feeBufferBps := by linarith
  obtain ⟨hnonneg, hle⟩ :=
    resolveInvestableBudget_bounds knobs (le_max_right (cashTry - knobs.targetTryCash) 0)
  simp only [budgetsOf, if_pos hpos]
  exact ⟨div_nonneg hnonneg hpos.le, mul_div_cancel₀ _ hpos.ne', hle⟩

end Budgets

/-- The actions stay inside every budget of the cycle, and are what the decisions say. -/
theorem allocate_within_budget (intents : List Intent) (balances : Mapping ℚ)
    (positions : Mapping PositionSummary) (markPrices : Mapping ℚ) (knobs : AllocationKnobs) :
    let result := allocate intents balances positions markPrices knobs
    let feeBuffer := resolveFeeBufferRatio knobs.feeBufferRatio knobs.feeBufferBps
    buyTotal result.actions ≤ result.deployBudgetTry ∧
    (1 + feeBuffer) * buyTotal result.actions ≤ result.investableThisCycleTry ∧
    result.investableThisCycleTry ≤ max (result.cashTry - result.tryCashTarget) 0 ∧
    (0 < knobs.maxTotalNotionalTryPerCycle →
      (result.actions.map SizedAction.notionalTry).sum ≤ knobs.maxTotalNotionalTryPerCycle) ∧
    (∀ action ∈ result.actions, knobs.minOrderNotionalTry ≤ action.notionalTry) ∧
    result.decisions.map decidedRequest = intents.mapIdx requestOf ∧
    List.Forall₂ IsActionOf result.actions
      (result.decisions.filter fun decision => decision.status ≠ .rejected) := by
  intro result feeBuffer
  have hfee : 0 ≤ feeBuffer := resolveFeeBufferRatio_nonneg _ _
  obtain ⟨hdeploy, hfees, htotal⟩ := budgetsOf_bounds knobs result.cashTry
  have hbooked : Booked result.deployBudgetTry intents
      (runIntents knobs (positions.mapKeys canonicalSymbol) (markPrices.mapKeys canonicalSymbol)
        result.deployBudgetTry intents) := runIntents_booked hdeploy intents
  have hspent := @runIntents_spent knobs (positions.mapKeys canonicalSymbol)
    (markPrices.mapKeys canonicalSymbol) result.deployBudgetTry intents
  have hbuys : buyTotal result.actions ≤ result.deployBudgetTry :=
    le_of_le_of_eq (le_add_of_nonneg_right hbooked.left) hbooked.booked
  refine ⟨hbuys, ?_, htotal, ?_, ?_, hbooked.decided, hbooked.actions⟩
  · calc (1 + feeBuffer) * buyTotal result.actions
        ≤ (1 + feeBuffer) * result.deployBudgetTry := by
          apply mul_le_mul_of_nonneg_left hbuys
          linarith
      _ = result.investableThisCycleTry := hfees
  · intro hcap
    exact le_of_le_of_eq (le_add_of_nonneg_right (hspent.left hcap)) (hspent.spent hcap)
  · exact fun action hin => (hspent.sized action hin).min

end AllocationBudget
