import Btcbot.EqualPurchases
import Btcbot.FirstShares
import Btcbot.SortedFold

/-!
# Planning with another multiplier

Asked for the same cycle, the pipeline plans the same orders however its universe is
listed. The multiplier scales caps, and the budget that is shared out: the orders are those
of the whole budget as long as every purchase, or every share, comes to the same quantity.
-/
namespace ScaledPlan

open PyData AllocationService DecisionPipeline CycleCap AggressivePlan
open Stage4Planning (decisionPipeline)
open KernelOrders EqualPurchases FirstShares Gathering

section Sharing

variable {service : Service} {I J : CycleInput} {scores : Mapping ℚ}

/-- The same symbols kept, in any order, with the same plans. -/
structure SameSharing (s t : Sharing) : Prop where
  kept : s.kept.Perm t.kept
  plans : s.plans = t.plans
  again : s.again = t.again

variable (hshare : ∀ kept kept' symbol, kept.Perm kept' →
  shareOf service I scores kept symbol = shareOf service J scores kept' symbol)

include hshare in
theorem sharePass_same (s t : Sharing) (h : SameSharing s t) :
    SameSharing (sharePass service I scores s) (sharePass service J scores t) := by
  have hsame (symbol : String) := hshare s.kept t.kept symbol h.kept
  constructor
  · refine List.perm_iff_count.mpr fun symbol => ?_
    rw [sharePass, sharePass, foldl_kept, foldl_kept, hsame, h.kept.count_eq]
  · refine Dict.ext fun symbol => ?_
    rw [sharePass_plans, sharePass_plans, hsame]
    simp only [h.kept.mem_iff]
  · rw [sharePass, sharePass, foldl_again, foldl_again, h.kept.any_eq]
    simp only [hsame]

include hshare in
/-- The plans do not depend on the order the universe is listed in. -/
theorem share_same {U V : List String} (h : (eligible I U).Perm (eligible J V)) :
    (share service I scores U).plans = (share service J scores V).plans := by
  have hguard (s t : Sharing) (hst : SameSharing s t) :
      (s.again && decide (s.kept ≠ [])) = (t.again && decide (t.kept ≠ [])) := by
    have hnil : s.kept = [] ↔ t.kept = [] :=
      ⟨fun hs => (hs ▸ hst.kept).symm.eq_nil, fun ht => (ht ▸ hst.kept).eq_nil⟩
    simp only [hst.again, ne_eq, hnil]
  rw [share, share, h.length_eq]
  have hbegin : SameSharing { kept := eligible I U } { kept := eligible J V } := ⟨h, rfl, rfl⟩
  exact (WhileLoop.run_related hguard (sharePass_same hshare) _ _ _ hbegin).plans

end Sharing

section Pipeline

variable {settings : Settings}
  {universeSelector : List SymbolInfo → List (String × OrderBookSummary) → List String}
  {I J : CycleInput}

/-- The cycles differ in nothing but how their open orders and their symbols are listed, in
the order books and in the multiplier. -/
structure SameCycle (I J : CycleInput) : Prop where
  nowTs : I.nowTs = J.nowTs
  balances : I.balances = J.balances
  positions : I.positions = J.positions
  markPrices : I.markPrices = J.markPrices
  bought : ∀ symbol, isBought I symbol = isBought J symbol
  pairInfo : I.pairInfo = J.pairInfo
  bootstrapEnabled : I.bootstrapEnabled = J.bootstrapEnabled
  liveMode : I.liveMode = J.liveMode
  scores : I.aggressiveScores = J.aggressiveScores

theorem wanted_same (h : SameCycle I J) (symbol : String) :
    wanted settings I symbol = wanted settings J symbol := by
  have hmark : markOf I symbol = markOf J symbol := by rw [markOf, markOf, h.markPrices]
  have hheld : heldQty I symbol = heldQty J symbol := by rw [heldQty, heldQty, h.positions]
  have hfunds : buyNotional settings I = buyNotional settings J := by
    rw [buyNotional, buyNotional, cashOf, cashOf, h.balances]
  rw [wanted, wanted, hmark, hheld, hfunds, h.bought]

theorem generateIntents_same (h : SameCycle I J) {U V : List String} (hperm : U.Perm V) :
    DecisionPipeline.generateIntents (decisionPipeline settings universeSelector) I U =
      DecisionPipeline.generateIntents (decisionPipeline settings universeSelector) J V := by
  have hsorted : U.insertionSort (· ≤ ·) = V.insertionSort (· ≤ ·) :=
    SortedFold.insertionSort_perm_eq _ hperm fun a _ b _ => le_antisymm
  have hwanted : wanted settings I = wanted settings J := funext (wanted_same h)
  have hintent : buyIntent settings I = buyIntent settings J := by
    funext symbol
    simp only [buyIntent, buyNotional, cashOf, h.balances]
  rw [generateIntents_baseline, generateIntents_baseline, hsorted, hwanted, hintent,
    h.bootstrapEnabled]

theorem mapAction_same (h : SameCycle I J) : mapAction I = mapAction J := by
  funext action
  simp only [mapAction, h.pairInfo, h.liveMode, h.markPrices, h.nowTs]

def ordersOfActions (settings : Settings) (I : CycleInput) (actions : List SizedAction) :
    Except PlanError (List Order) :=
  (actions.mapM (mapAction I)).map fun mapped =>
    (selectOrdersForCycle settings (mapped.filterMap Except.toOption)).1

theorem normalPath_orders (symbols : List String) :
    (runNormalPath (decisionPipeline settings universeSelector) I symbols).map
        CycleDecisionReport.orderRequests =
      ordersOfActions settings I (allocationOf (decisionPipeline settings universeSelector) I
        (DecisionPipeline.generateIntents (decisionPipeline settings universeSelector) I
          symbols)).actions := by
  unfold runNormalPath ordersOfActions
  cases hmapped : (allocationOf (decisionPipeline settings universeSelector) I
    (DecisionPipeline.generateIntents (decisionPipeline settings universeSelector) I
      symbols)).actions.mapM (mapAction I) with
  | error e =>
    simp only [hmapped]
    rfl
  | ok mapped =>
    simp only [hmapped]
    rfl

/-- The actions are the same for universes of the same symbols. -/
theorem actions_same (h : SameCycle I J) {U V : List String} (hperm : U.Perm V)
    (hscale : I.budgetNotionalMultiplier = J.budgetNotionalMultiplier) :
    (allocationOf (decisionPipeline settings universeSelector) I
      (DecisionPipeline.generateIntents (decisionPipeline settings universeSelector) I U)).actions =
    (allocationOf (decisionPipeline settings universeSelector) J
      (DecisionPipeline.generateIntents (decisionPipeline settings universeSelector) J
        V)).actions := by
  rw [generateIntents_same h hperm, allocationOf, allocationOf, knobsOf, knobsOf, hscale,
    h.balances, h.positions, h.markPrices]

theorem shareOf_same (h : SameCycle I J) {scores : Mapping ℚ}
    (hdeploy : aggressiveDeployBudget (decisionPipeline settings universeSelector) I =
      aggressiveDeployBudget (decisionPipeline settings universeSelector) J)
    (kept kept' : List String) (symbol : String) (hkept : kept.Perm kept') :
    shareOf (decisionPipeline settings universeSelector) I scores kept symbol =
      shareOf (decisionPipeline settings universeSelector) J scores kept' symbol := by
  simp only [shareOf, h.pairInfo, h.markPrices, hdeploy, weightOf_perm hkept]

theorem deployBudget_same (h : SameCycle I J)
    (hscale : I.budgetNotionalMultiplier = J.budgetNotionalMultiplier) :
    aggressiveDeployBudget (decisionPipeline settings universeSelector) I =
      aggressiveDeployBudget (decisionPipeline settings universeSelector) J := by
  simp only [aggressiveDeployBudget, aggressiveInvestable, aggressiveCash, scaledMultiplier,
    h.balances, hscale]

theorem eligible_same (h : SameCycle I J) {U V : List String} (hperm : U.Perm V) :
    (eligible I U).Perm (eligible J V) := by
  rw [eligible, eligible, h.pairInfo, h.markPrices]
  exact hperm.filter _

/-- Asked for the same cycle with the same multiplier, the pipeline plans the same orders. -/
theorem runCycle_same (h : SameCycle I J)
    (hperm : (selectUniverse (decisionPipeline settings universeSelector) I).Perm
      (selectUniverse (decisionPipeline settings universeSelector) J))
    (hscale : I.budgetNotionalMultiplier = J.budgetNotionalMultiplier) :
    (runCycle (decisionPipeline settings universeSelector) I).map
        CycleDecisionReport.orderRequests =
      (runCycle (decisionPipeline settings universeSelector) J).map
        CycleDecisionReport.orderRequests := by
  have hfound : scoresOf I = scoresOf J := by rw [scoresOf, scoresOf, h.scores]
  unfold runCycle
  rw [hfound]
  cases hscores : scoresOf J with
  | none =>
    simp only
    rw [normalPath_orders, normalPath_orders, actions_same h hperm hscale,
      ordersOfActions, ordersOfActions, mapAction_same h]
  | some scores =>
    have hdeploy := @deployBudget_same settings universeSelector _ _ h hscale
    have hplans := share_same (@shareOf_same _ _ _ _ h scores hdeploy) (eligible_same h hperm)
    have horder : aggressiveOrder I = aggressiveOrder J := by
      funext index symbol plan
      simp only [aggressiveOrder, h.nowTs, h.liveMode]
    simp only [Except.map, runAggressivePath, hplans, horder]

end Pipeline

section Scaled

variable (settings : Settings)
  (universeSelector : List SymbolInfo → List (String × OrderBookSummary) → List String)
  (input : CycleInput) (symbols : List String)

/-- The cycle with the whole of its budget. -/
def whole : CycleInput := { input with budgetNotionalMultiplier := 1 }

/-- What there is to share among the scored symbols, its fees apart. -/
def sharedBudget : ℚ :=
  max 0 (aggressiveCash input - settings.tryCashTarget) * scaledMultiplier input /
    (1 + resolveFeeBufferRatio settings.feeBufferRatio settings.allocationFeeBufferBps)

/-- The share that a symbol has among those kept, if it makes an order. -/
def shareAmong (scores : Mapping ℚ) (kept : List String) (symbol : String) :
    Option (ℚ × ℚ × ℚ) :=
  match (pairInfoBySymbol input.pairInfo)[symbol]? with
  | none => none
  | some pair =>
    (planShare (sharedBudget settings input) (weightOf scores kept symbol) (markOf input symbol)
      pair).toOption

/-- The eligible symbols whose share among all of them makes an order. -/
def sharing (scores : Mapping ℚ) : List String :=
  (eligible input symbols).filter fun symbol =>
    (shareAmong settings input scores (eligible input symbols) symbol).isSome

/-- The share of a symbol, cut anew among those that have one. -/
def lastShare (scores : Mapping ℚ) (symbol : String) : Option (ℚ × ℚ × ℚ) :=
  if symbol ∈ sharing settings input symbols scores then
    shareAmong settings input scores (sharing settings input symbols scores) symbol
  else none

/-- The multiplier changes no quantity: the caps that it scales leave of every purchase what
they leave of it unscaled, to the step of the grid, and every share of the scaled budget is
the share of the whole. -/
def ScaledAlike : Prop :=
  match scoresOf input with
  | none => quantities settings universeSelector (whole input) symbols =
      quantities settings universeSelector input symbols
  | some scores => ∀ symbol ∈ eligible input symbols,
      lastShare settings (whole input) symbols scores symbol =
        lastShare settings input symbols scores symbol

/-- The pipeline has an order to plan: a purchase that makes one or a share, and room for it
among the orders of a cycle. -/
def PlansOrders : Prop :=
  0 < settings.maxOrdersPerCycle ∧
    match scoresOf input with
    | none => anyPlaced settings universeSelector input symbols = true
    | some scores => sharing settings input symbols scores ≠ []

variable {settings universeSelector input symbols}

theorem normalPath_quantities (h : Spelled input) (symbols : List String) :
    (runNormalPath (decisionPipeline settings universeSelector) input symbols).map
        CycleDecisionReport.orderRequests =
      (gather ((purchases settings input symbols).mapIdx fun place symbol =>
        orderFor input place symbol (coins settings universeSelector input place symbol))).map
          fun orders => (selectOrdersForCycle settings orders).1 := by
  rw [normalPath_orders, ordersOfActions, ← allocation_orders h]
  cases (allocationOf (decisionPipeline settings universeSelector) input
    (DecisionPipeline.generateIntents (decisionPipeline settings universeSelector) input
      symbols)).actions.mapM (mapAction input) with
  | error e => rfl
  | ok mapped => rfl

theorem shareAmong_eq {service : Service} {scores : Mapping ℚ} {kept : List String}
    {symbol : String} : shareAmong service.settings input scores kept symbol =
      (shareOf service input scores kept symbol).toOption := by
  unfold shareAmong shareOf
  cases (pairInfoBySymbol input.pairInfo)[symbol]? with
  | none => rfl
  | some pair => rfl

theorem lastShare_uneligible {scores : Mapping ℚ} {symbol : String}
    (h : symbol ∉ eligible input symbols) :
    lastShare settings input symbols scores symbol = none :=
  if_neg fun hin => h (List.mem_of_mem_filter hin)

theorem sharing_eq {service : Service} {scores : Mapping ℚ} :
    sharing service.settings input symbols scores = firstKept service input scores symbols := by
  refine List.filter_congr fun symbol _ => ?_
  rw [shareAmong_eq]
  cases shareOf service input scores (eligible input symbols) symbol with
  | error reason => rfl
  | ok plan => rfl

/-- The plan of the scored symbols is their shares. -/
theorem share_lastShare {service : Service} {scores : Mapping ℚ} (symbol : String) :
    (share service input scores symbols).plans[symbol]? =
      lastShare service.settings input symbols scores symbol := by
  rw [share_plans, lastShare, sharing_eq, shareAmong_eq]

theorem share_whole {service : Service} {scores : Mapping ℚ}
    (h : ∀ symbol ∈ eligible input symbols,
      lastShare service.settings (whole input) symbols scores symbol =
        lastShare service.settings input symbols scores symbol) :
    (share service (whole input) scores symbols).plans =
      (share service input scores symbols).plans := by
  refine Dict.ext fun symbol => ?_
  rw [share_lastShare, share_lastShare]
  by_cases hin : symbol ∈ eligible input symbols
  · exact h symbol hin
  · have hout : symbol ∉ eligible (whole input) symbols := hin
    rw [lastShare_uneligible hin, lastShare_uneligible hout]

/-- Where the multiplier changes no quantity, it changes no order. -/
theorem runCycle_whole (h : Spelled input)
    (hscale : ScaledAlike settings universeSelector input
      (selectUniverse (decisionPipeline settings universeSelector) input)) :
    (runCycle (decisionPipeline settings universeSelector) (whole input)).map
        CycleDecisionReport.orderRequests =
      (runCycle (decisionPipeline settings universeSelector) input).map
        CycleDecisionReport.orderRequests := by
  have hfound : scoresOf (whole input) = scoresOf input := rfl
  have huniverse : selectUniverse (decisionPipeline settings universeSelector) (whole input) =
      selectUniverse (decisionPipeline settings universeSelector) input := rfl
  unfold ScaledAlike at hscale
  unfold runCycle
  rw [hfound, huniverse]
  cases hscores : scoresOf input with
  | none =>
    rw [hscores] at hscale
    have hspelled : Spelled (whole input) := ⟨h.marks, h.positions⟩
    simp only
    rw [normalPath_quantities hspelled, normalPath_quantities h,
      gather_quantities hscale rfl rfl]
  | some scores =>
    rw [hscores] at hscale
    simp only [Except.map, runAggressivePath,
      @share_whole _ _ (decisionPipeline settings universeSelector) scores hscale]
    rfl

theorem selected_ne_nil {orders : List Order} (hroom : 0 < settings.maxOrdersPerCycle)
    (h : orders ≠ []) : (selectOrdersForCycle settings orders).1 ≠ [] := by
  have hsorted : orders.insertionSort RankedBefore ≠ [] := fun hnone =>
    h ((List.perm_insertionSort RankedBefore orders).symm.trans (hnone ▸ .refl _)).eq_nil
  intro hnil
  rcases List.take_eq_nil_iff.mp hnil with hnone | hnone
  · omega
  · exact hsorted hnone

/-- Where the pipeline has an order to plan, it plans some. -/
theorem runCycle_plans (h : Spelled input)
    (hplans : PlansOrders settings universeSelector input
      (selectUniverse (decisionPipeline settings universeSelector) input))
    {report : CycleDecisionReport}
    (hreport : runCycle (decisionPipeline settings universeSelector) input = .ok report) :
    report.orderRequests ≠ [] := by
  obtain ⟨hroom, hplans⟩ := hplans
  unfold runCycle at hreport
  cases hscores : scoresOf input with
  | none =>
    rw [hscores] at hplans hreport
    have horders := @normalPath_quantities settings universeSelector input h
      (selectUniverse (decisionPipeline settings universeSelector) input)
    rw [show runNormalPath _ _ _ = Except.ok report from hreport] at horders
    cases hgather : gather ((purchases settings input (selectUniverse (decisionPipeline settings
        universeSelector) input)).mapIdx fun place symbol => orderFor input place symbol
          (coins settings universeSelector input place symbol)) with
    | error e =>
      rw [hgather] at horders
      cases horders
    | ok orders =>
      rw [hgather] at horders
      rw [Except.ok.inj horders]
      exact selected_ne_nil hroom (gather_placed h hplans hgather)
  | some scores =>
    rw [hscores] at hplans hreport
    obtain rfl := Except.ok.inj hreport
    obtain ⟨symbol, hin⟩ := List.exists_mem_of_ne_nil _ hplans
    have hkept : symbol ∈ firstKept (decisionPipeline settings universeSelector) input scores
        (selectUniverse (decisionPipeline settings universeSelector) input) := sharing_eq ▸ hin
    obtain ⟨plan, hplan⟩ := Option.isSome_iff_exists.mp ((share_isSome _ symbol).mpr hkept)
    have hentry := (Dict.mem_toList _ (symbol, plan)).mpr hplan
    refine selected_ne_nil hroom fun hnil => ?_
    have hnone := List.mapIdx_eq_nil_iff.mp hnil
    rw [hnone] at hentry
    cases hentry

end Scaled

end ScaledPlan
