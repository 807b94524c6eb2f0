import Btcbot.CycleBids
import Btcbot.PlanParity

/-!
# When planning with and without the kernel is the same

A plan is told by the symbols and quantities that it buys. Where the two ways of planning see
the same symbols and open purchases, their plans are the same exactly if they buy the same,
the one with the whole budget and the bootstrap's own knobs, the other with those of the cycle.
-/
namespace CycleParity

open PyData AllocationService DecisionPipeline
open Stage4Planning KernelOrders EqualPurchases ScaledPlan PlanParity CycleBids

section Boots

variable {settings : Settings} {cycle : Cycle}

/-- The symbols that the bootstrap buys, with the quantities. -/
def boots (request : BootstrapRequest) : List (String × ℚ) :=
  if request.bootstrapEnabled then
    (request.symbols.map fun symbol => (symbol, bootstrapCoins request symbol)).filter
      fun bid => mayBuy request bid.1 ∧ 0 < bid.2
  else []

theorem buildIntents_boots {request : BootstrapRequest}
    (hpairs : request.pairInfo = cycle.pairInfo)
    (hmarks : request.markPrices = (coverage cycle).1)
    (hsymbols : request.symbols = eligibleSymbols cycle) :
    ((buildIntents request).1.map termsOf).Perm
      ((boots request).map (bidTerms (legacyInput settings cycle))) := by
  refine (buildIntents_terms request).trans (.of_eq ?_)
  unfold boots
  split
  · rw [List.filter_map, List.map_map, ← List.filterMap_eq_map, List.filterMap_filter]
    refine List.filterMap_congr fun symbol hin => ?_
    rw [hsymbols] at hin
    have hnormal := activeSymbols_normal (List.mem_of_mem_filter hin)
    have hmark : markOf (legacyInput settings cycle) symbol =
        (request.markPrices.get symbol).getD 0 := by
      rw [hmarks]
      rfl
    have hinfo : (legacyInput settings cycle).pairInfo = some request.pairInfo := by
      rw [hpairs]
      rfl
    rw [bootstrapOrder_coins]
    simp only [Function.comp_apply, decide_eq_true_eq, bidTerms, priceOf, hinfo, hmark, hnormal]
    cases hpair : (pairInfoBySymbol (some request.pairInfo))[symbol]? with
    | none =>
      have hzero : bootstrapCoins request symbol = 0 := by
        simp only [bootstrapCoins, hnormal, hpair]
      simp [hzero]
    | some pair => rfl
  · rfl

end Boots

section Parity

variable (settings : Settings)
  (universeSelector : List SymbolInfo → List (String × OrderBookSummary) → List String)
  (cycle : Cycle)

/-- They see the same, and no symbol that has a mark is planned for twice. -/
structure PlansOnce : Prop extends SeesAlike settings universeSelector cycle where
  once : ((plannedSymbols settings universeSelector cycle).filter fun symbol =>
    decide (0 < markOf (legacyInput settings cycle) symbol)).Nodup

/-- What a cycle buys: the largest of the pipeline's bids or, where it makes none, what the
bootstrap buys. -/
def bought (input : CycleInput) (request : BootstrapRequest) :
    Except PlanError (List (String × ℚ)) :=
  (bids settings universeSelector input (plannedSymbols settings universeSelector cycle)).map
    fun bids =>
      if selectedBids settings input bids ≠ [] then selectedBids settings input bids
      else boots request

/-- The same is bought of every symbol, or both fail. -/
def SameBought (bought bought' : Except PlanError (List (String × ℚ))) : Prop :=
  match bought, bought' with
  | .ok bids, .ok bids' => bids.Perm bids'
  | .error _, .error _ => True
  | _, _ => False

instance (bought bought' : Except PlanError (List (String × ℚ))) :
    Decidable (SameBought bought bought') :=
  match bought, bought' with
  | .ok bids, .ok bids' => inferInstanceAs (Decidable (bids.Perm bids'))
  | .error _, .error _ => .isTrue trivial
  | .ok _, .error _ => .isFalse id
  | .error _, .ok _ => .isFalse id

/-- The whole budget with the bootstrap's own knobs buys what the cycle's budget and knobs buy. -/
def BuysAlike : Prop :=
  SameBought
    (bought settings universeSelector cycle (whole (legacyInput settings cycle))
      (unsetBootstrap settings cycle))
    (bought settings universeSelector cycle (legacyInput settings cycle)
      (legacyBootstrap settings cycle))

variable {settings universeSelector cycle}

theorem bidTerms_injective (input : CycleInput) : Function.Injective (bidTerms input) := by
  rintro ⟨symbol, qty⟩ ⟨symbol', qty'⟩ h
  simp only [bidTerms, Prod.mk.injEq] at h
  exact Prod.ext h.1 h.2.2.2

/-- The orders of the pipeline, or of the bootstrap, are told by what is bought. -/
theorem ordersOrBoots_perm {input : CycleInput} {request : BootstrapRequest}
    {bids : List (String × ℚ)} {orders booted : List Order}
    (horders : orders.map termsOf = (selectedBids settings input bids).map (bidTerms input))
    (hbooted : (booted.map termsOf).Perm ((boots request).map (bidTerms input))) :
    ((if orders ≠ [] then orders else booted).map termsOf).Perm
      ((if selectedBids settings input bids ≠ [] then selectedBids settings input bids
        else boots request).map (bidTerms input)) := by
  have hnil : orders = [] ↔ selectedBids settings input bids = [] := by
    rw [← List.map_eq_nil_iff, horders, List.map_eq_nil_iff]
  by_cases hnone : orders = []
  · rw [if_neg (not_not.mpr hnone), if_neg (not_not.mpr (hnil.mp hnone))]
    exact hbooted
  · rw [if_pos hnone, if_pos (mt hnil.mpr hnone)]
    exact .of_eq horders

/-- A plan is what is bought. -/
def Buys {ε : Type} (input : CycleInput) (plan : Except ε (List Order))
    (bought : Except PlanError (List (String × ℚ))) : Prop :=
  match plan, bought with
  | .ok orders, .ok bids => (orders.map termsOf).Perm (bids.map (bidTerms input))
  | .error _, .error _ => True
  | _, _ => False

theorem samePlan_bought {input : CycleInput} {kernel : Except PlanningError (List Order)}
    {legacy : Except PlanError (List Order)} {bids bids' : Except PlanError (List (String × ℚ))}
    (h : Buys input kernel bids) (h' : Buys input legacy bids') :
    SamePlan kernel legacy ↔ SameBought bids bids' := by
  cases kernel with
  | error e =>
    cases bids with
    | ok bids => exact h.elim
    | error _ =>
      cases legacy with
      | error _ =>
        cases bids' with
        | ok bids' => exact h'.elim
        | error _ => exact Iff.rfl
      | ok orders' =>
        cases bids' with
        | ok bids' => exact Iff.rfl
        | error _ => exact h'.elim
  | ok orders =>
    cases bids with
    | error _ => exact h.elim
    | ok bids =>
      cases legacy with
      | error _ =>
        cases bids' with
        | ok bids' => exact h'.elim
        | error _ => exact Iff.rfl
      | ok orders' =>
        cases bids' with
        | error _ => exact h'.elim
        | ok bids' =>
          have hterms : (orders.map termsOf).Perm (bids.map (bidTerms input)) := h
          have hterms' : (orders'.map termsOf).Perm (bids'.map (bidTerms input)) := h'
          rw [SamePlan, SameBought, hterms.congr_left, hterms'.congr_right]
          exact List.map_perm_map_iff (bidTerms_injective input)

theorem kernel_buys (h : PlansOnce settings universeSelector cycle) :
    Buys (legacyInput settings cycle) (kernelIntents settings universeSelector cycle)
      (bought settings universeSelector cycle (whole (legacyInput settings cycle))
        (unsetBootstrap settings cycle)) := by
  obtain ⟨hmarks, hpositions⟩ := @legacyInput_spelled settings cycle
  have hspelled : Spelled (whole (legacyInput settings cycle)) := ⟨hmarks, hpositions⟩
  have hbuilt : Built (decisionPipeline settings universeSelector)
      (whole (legacyInput settings cycle)) := fun _ => ⟨rfl, hspelled⟩
  have hkernel := @runCycle_kernel settings universeSelector cycle h.toSeesAlike
  cases hasked : runCycle (decisionPipeline settings universeSelector)
      (kernelInput settings cycle) with
  | error e =>
    rw [hasked] at hkernel
    rw [kernelIntents_error _ _ _ hasked, bought]
    cases hbids : bids settings universeSelector (whole (legacyInput settings cycle))
        (plannedSymbols settings universeSelector cycle) with
    | error e' => trivial
    | ok bids =>
      obtain ⟨report, hreport, -⟩ := runCycle_buys hbuilt hbids
      rw [hreport] at hkernel
      cases hkernel
  | ok asked =>
    rw [hasked] at hkernel
    obtain ⟨orders, hintents, hperm⟩ := kernelIntents_ok _ _ _ hasked
    rw [hintents, bought]
    cases hbids : bids settings universeSelector (whole (legacyInput settings cycle))
        (plannedSymbols settings universeSelector cycle) with
    | error e =>
      rw [runCycle_fails hbuilt hbids] at hkernel
      cases hkernel
    | ok bids =>
      obtain ⟨report, hreport, hselected⟩ := runCycle_buys hbuilt hbids
      rw [hreport] at hkernel
      have horders : asked.orderRequests = report.orderRequests := Except.ok.inj hkernel
      have hterms := hselected.terms (bids_distinct hspelled h.once hbids)
      refine (hperm.trans ?_).trans (ordersOrBoots_perm hterms
        (@buildIntents_boots settings cycle (unsetBootstrap settings cycle) rfl rfl rfl))
      rw [ordersOf, horders]
      split
      · exact .refl _
      · exact adapterBootstrap_terms h.toSeesAlike

theorem legacy_buys (h : PlansOnce settings universeSelector cycle) :
    Buys (legacyInput settings cycle) (legacyIntents settings universeSelector cycle)
      (bought settings universeSelector cycle (legacyInput settings cycle)
        (legacyBootstrap settings cycle)) := by
  have hbuilt : Built (decisionPipeline settings universeSelector) (legacyInput settings cycle) :=
    fun _ => ⟨rfl, legacyInput_spelled⟩
  rw [bought]
  cases hbids : bids settings universeSelector (legacyInput settings cycle)
      (plannedSymbols settings universeSelector cycle) with
  | error e =>
    have hfails : legacyIntents settings universeSelector cycle = .error e := by
      rw [legacyIntents, runCycle_fails hbuilt hbids]
      rfl
    rw [hfails]
    trivial
  | ok bids =>
    obtain ⟨report, hreport, hselected⟩ := runCycle_buys hbuilt hbids
    have hterms := hselected.terms (bids_distinct legacyInput_spelled h.once hbids)
    rw [legacyIntents_ok h.toSeesAlike hreport]
    exact ordersOrBoots_perm hterms
      (@buildIntents_boots settings cycle (legacyBootstrap settings cycle) rfl rfl rfl)

/-- Planning with the kernel is planning without it where the cycle gives the two nothing to
differ in, and exactly where the same is bought. -/
theorem kernel_parity :
    (InStep settings universeSelector cycle →
      SamePlan (kernelIntents settings universeSelector cycle)
        (legacyIntents settings universeSelector cycle)) ∧
    (PlansOnce settings universeSelector cycle →
      (SamePlan (kernelIntents settings universeSelector cycle)
          (legacyIntents settings universeSelector cycle) ↔
        BuysAlike settings universeSelector cycle)) :=
  ⟨kernel_plans_legacy, fun h => samePlan_bought (kernel_buys h) (legacy_buys h)⟩

/-- Half of the budget still leaves what the one purchase takes. With the kill switch on, the
cap of a cycle's spending leaves nothing, and the bootstrap buys the same instead. -/
theorem kernel_parity_uncut :
    SamePlan (kernelIntents { symbols := ["BTCTRY"] } (fun _ _ => []) (oneSymbol 1000 (1 / 2)))
      (legacyIntents { symbols := ["BTCTRY"] } (fun _ _ => []) (oneSymbol 1000 (1 / 2))) ∧
    SamePlan
      (kernelIntents { symbols := [], investableUsageMode := "cap", maxTryPerCycle := 120 }
        (fun _ _ => []) (oneSymbol 1000 0))
      (legacyIntents { symbols := [], investableUsageMode := "cap", maxTryPerCycle := 120 }
        (fun _ _ => []) (oneSymbol 1000 0)) := by
  constructor
  · apply kernel_parity.1
    have hscores : scoresOf (legacyInput { symbols := ["BTCTRY"] } (oneSymbol 1000 (1 / 2))) =
        none := rfl
    constructor
    · exact ⟨by decide +kernel, by decide +kernel, by decide +kernel⟩
    · rw [ScaledAlike, hscores]
      decide +kernel
    · refine .inr (.inl ⟨by decide, ?_⟩)
      rw [hscores]
      decide +kernel
  · refine (kernel_parity.2 ?_).mpr ?_
    · constructor
      · exact ⟨by decide +kernel, by decide +kernel, by decide +kernel⟩
      · decide +kernel
    · unfold BuysAlike
      decide +kernel

end Parity

end CycleParity
