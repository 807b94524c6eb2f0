import Btcbot.AggressivePlan
import Btcbot.Stage4Planning

/-!
# The orders of the kernel

The kernel skips nothing of what the pipeline and the bootstrap plan: what it submits are
the orders of its own call of the pipeline or, where there are none, of its own call of
the bootstrap.
-/
namespace KernelOrders

open PyData AllocationService DecisionPipeline CycleCap AggressivePlan
open PlanningKernel (Kernel OrderIntent sortOrderIntents universeOf sortOrderIntents_perm)
open Stage4Planning

section Translation

/-- What is compared of an order. -/
def termsOf (order : Order) : String × String × ℚ × ℚ :=
  (order.symbol, order.side, order.price, order.qty)

/-- An order as the pipeline and the bootstrap write them. -/
structure Plain (order : Order) : Prop where
  symbol : normalizeSymbol order.symbol = order.symbol
  side : order.side = "buy" ∨ order.side = "sell"
  type : order.type = "limit"

theorem orderIntentOf_plain {order : Order} (h : Plain order) (cycleId : String) :
    orderIntentOf cycleId order =
      { cycleId := cycleId
        symbol := order.symbol
        side := order.side.toUpper
        orderType := "LIMIT"
        priceTry := order.price
        qty := order.qty
        notionalTry := order.price * order.qty
        clientOrderId := order.clientOrderId.getD ""
        reason := order.status
        constraintsApplied := [] } := by
  have hside : normalizeSide order.side = some order.side.toUpper := by
    rcases h.side with hbuy | hsell
    · rw [hbuy]
      decide +kernel
    · rw [hsell]
      decide +kernel
  have htype : normalizeOrderType order.type = some "LIMIT" := by
    rw [h.type]
    decide +kernel
  simp only [orderIntentOf, hside, htype, h.symbol]

theorem side_roundTrip {order : Order} (h : Plain order) :
    order.side.toUpper.toLower = order.side := by
  rcases h.side with hbuy | hsell
  · rw [hbuy]
    decide +kernel
  · rw [hsell]
    decide +kernel

/-- Plain orders come back from their order intents, in the kernel's order. -/
theorem translate_perm {orders : List Order} (h : ∀ order ∈ orders, Plain order)
    (cycleId : String) (nowUtc : DateTime) (liveMode : Bool) :
    ((translateKernelOrderIntents (sortOrderIntents (orders.map (orderIntentOf cycleId))) nowUtc
      liveMode).map termsOf).Perm (orders.map termsOf) := by
  have hperm := sortOrderIntents_perm (orders.map (orderIntentOf cycleId))
  have hkept : (orders.map (orderIntentOf cycleId)).filter (fun item => !item.skipped) =
      orders.map (orderIntentOf cycleId) := by
    refine List.filter_eq_self.mpr fun item hitem => ?_
    obtain ⟨order, horder, rfl⟩ := List.mem_map.mp hitem
    rw [orderIntentOf_plain (h order horder)]
    rfl
  have hsorted := ((hperm.filter fun item => !item.skipped).trans (List.Perm.of_eq hkept)).map
    fun item : OrderIntent => (item.symbol, item.side.toLower, item.priceTry, item.qty)
  rw [translateKernelOrderIntents, List.map_map]
  refine hsorted.trans (List.Perm.of_eq ?_)
  rw [List.map_map]
  refine List.map_congr_left fun order horder => ?_
  simp only [Function.comp_apply, orderIntentOf_plain (h order horder), termsOf,
    side_roundTrip (h order horder)]

end Translation

section Pipeline

variable (settings : Settings)
  (universeSelector : List SymbolInfo → List (String × OrderBookSummary) → List String)
  (input : CycleInput)

def cashOf : ℚ := ((input.balances.mapKeys String.toUpper).get "TRY").getD 0

def markOf (symbol : String) : ℚ := (input.markPrices.get symbol).getD 0

def heldQty (symbol : String) : ℚ := ((input.positions.get symbol).map PositionSummary.qty).getD 0

/-- An open order buys the symbol. -/
def isBought (symbol : String) : Bool :=
  input.openOrders.any fun order => order.symbol = symbol && order.side = "buy"

def buyNotional : ℚ :=
  min settings.stage5BootstrapNotionalTry (min settings.stage5MaxIntentNotionalTry (cashOf input))

/-- The symbol has a mark, is not held and not being bought, and there is something to buy
it for. -/
def wanted (symbol : String) : Bool :=
  0 < markOf input symbol && heldQty input symbol ≤ 0 && !isBought input symbol &&
    0 < buyNotional settings input

def buyIntent (symbol : String) : Intent where
  symbol := normalizeSymbol symbol
  side := .buy
  intentType := .place
  targetNotionalTry := some (buyNotional settings input)
  rationale := "bootstrap_position"
  strategyId := "baseline_mean_reversion_v1"
  confidence := some (3 / 5)

private theorem buyCount_fold (orders : List Order) (symbol : String)
    (summaries : Dict OpenOrdersSummary) :
    (((orders.foldl (fun summaries order =>
        summaries.insert order.symbol ((summaries[order.symbol]?.getD {}).count order.side))
      summaries)[symbol]?).getD {}).buyCount =
      ((summaries[symbol]?).getD {}).buyCount +
        orders.countP fun order => order.symbol = symbol && order.side = "buy" := by
  induction orders generalizing summaries with
  | nil => rfl
  | cons order orders ih =>
    rw [List.foldl_cons, ih, List.countP_cons, Dict.insert_get]
    by_cases hsame : order.symbol = symbol
    · subst hsame
      by_cases hbuy : order.side = "buy"
      · simp [OpenOrdersSummary.count, hbuy]
        omega
      · simp [OpenOrdersSummary.count, hbuy]
    · simp [hsame]

/-- A symbol has open buys in the summary exactly if an open order buys it. -/
theorem ordersSummary_buys (symbol : String) :
    0 < (((ordersSummary input.openOrders)[symbol]?).getD {}).buyCount ↔
      isBought input symbol = true := by
  rw [ordersSummary, buyCount_fold]
  simp [isBought, List.countP_pos_iff]

/-- The strategy's anchor is the mark itself, so that it buys what is wanted and never
sells. -/
theorem symbolIntents_baseline (symbol : String) :
    symbolIntents (decisionPipeline settings universeSelector) input symbol =
      if wanted settings input symbol then [buyIntent settings input symbol] else [] := by
  unfold symbolIntents
  cases hmark : input.markPrices.get symbol with
  | none => simp [wanted, markOf, hmark]
  | some mark =>
    simp only
    split
    · next hpos =>
      have hbuys := ordersSummary_buys input symbol
      have hfall : ¬ (0 : ℚ) ≤ -50 := by norm_num
      have hrise : ¬ (50 : ℚ) ≤ 0 := by norm_num
      have hmarked : 0 < markOf input symbol := by simpa [markOf, hmark] using hpos
      simp only [decisionPipeline, baselineMeanReversion, Option.getD_none, sub_self, zero_div,
        zero_mul, if_neg (not_le.mpr hpos), if_neg hfall, if_neg hrise, ← heldQty.eq_1,
        ← cashOf.eq_1, ← buyNotional.eq_1]
      by_cases hheld : heldQty input symbol ≤ 0
      · rw [if_pos hheld]
        by_cases hbought : isBought input symbol = true
        · rw [if_pos (hbuys.mpr hbought)]
          simp [wanted, hbought]
        · rw [if_neg fun hcount => hbought (hbuys.mp hcount)]
          by_cases hfunded : 0 < buyNotional settings input
          · have hmax : ¬ min settings.stage5MaxIntentNotionalTry (cashOf input) ≤ 0 :=
              not_le.mpr (hfunded.trans_le (min_le_right _ _))
            rw [if_neg hmax, if_neg (not_le.mpr hfunded)]
            simp [wanted, buyIntent, hmarked, hheld, hbought, hfunded]
          · rw [if_pos (not_lt.mp hfunded), ite_self]
            simp [wanted, hfunded]
      · rw [if_neg hheld]
        simp [wanted, hheld]
    · next hneg => simp [wanted, markOf, hmark, hneg]

theorem generateIntents_baseline (symbols : List String) :
    DecisionPipeline.generateIntents (decisionPipeline settings universeSelector) input symbols =
      if input.bootstrapEnabled then
        ((symbols.insertionSort (· ≤ ·)).filter (wanted settings input)).map
          (buyIntent settings input)
      else [] := by
  rw [DecisionPipeline.generateIntents]
  congr 1
  induction symbols.insertionSort (· ≤ ·) with
  | nil => rfl
  | cons symbol symbols ih =>
    rw [List.flatMap_cons, ih, symbolIntents_baseline]
    by_cases hwanted : wanted settings input symbol = true
    · simp [hwanted]
    · simp [hwanted]

end Pipeline

section Planned

variable {settings : Settings}
  {universeSelector : List SymbolInfo → List (String × OrderBookSummary) → List String}
  {input : CycleInput}

/-- An order in the spelling of the pipeline, for one of the symbols that has a mark. -/
structure Planned (input : CycleInput) (symbols : List String) (order : Order) : Prop where
  side : order.side = "buy" ∨ order.side = "sell"
  type : order.type = "limit"
  origin : ∃ symbol ∈ symbols, 0 < markOf input symbol ∧ order.symbol = normalizeSymbol symbol

theorem Planned.plain {symbols : List String} {order : Order} (h : Planned input symbols order) :
    Plain order := by
  obtain ⟨symbol, -, -, hsymbol⟩ := h.origin
  refine ⟨?_, h.side, h.type⟩
  rw [hsymbol, normalizeSymbol_idem]

theorem side_text (side : Side) : side.text = "buy" ∨ side.text = "sell" := by
  cases side with
  | buy => exact .inl rfl
  | sell => exact .inr rfl

theorem mapAction_orderOf {action : SizedAction} {order : Order}
    (h : mapAction input action = .ok (.ok order)) :
    ∃ price qty, order = orderOf action input.liveMode price qty input.nowTs := by
  unfold mapAction at h
  cases hpair : (pairInfoBySymbol input.pairInfo)[canonicalSymbol action.symbol]? with
  | none =>
    simp only [hpair] at h
    cases h
  | some pair =>
    simp only [hpair, sizedActionToOrder] at h
    split at h
    · cases h
    · split at h
      · cases h
      · split at h
        · cases h
        · split at h
          · cases h
          · split at h
            · exact ⟨_, _, (Except.ok.inj (Except.ok.inj h)).symm⟩
            · split at h
              · cases h
              · split at h
                · cases h
                · split at h
                  · cases h
                  · exact ⟨_, _, (Except.ok.inj (Except.ok.inj h)).symm⟩

/-- Every action is for the symbol of an intent taken. -/
def ForIntents (taken : List Intent) (progress : Progress) : Prop :=
  ∀ action ∈ progress.actions, ∃ intent ∈ taken, action.symbol = canonicalSymbol intent.symbol

theorem forIntents_allocateIntent {knobs : AllocationKnobs} {positions : Mapping PositionSummary}
    {prices : Mapping ℚ} (taken : List Intent) (intent : Intent) (progress : Progress)
    (h : ForIntents taken progress) :
    ForIntents (taken ++ [intent]) (allocateIntent knobs positions prices progress intent) := by
  intro action hin
  have hold (hin : action ∈ progress.actions) :
      ∃ other ∈ taken ++ [intent], action.symbol = canonicalSymbol other.symbol := by
    obtain ⟨other, hother, hsymbol⟩ := h action hin
    exact ⟨other, List.mem_append_left _ hother, hsymbol⟩
  unfold allocateIntent at hin
  cases hsized : sizeIntent knobs positions prices progress intent with
  | error reason =>
    rw [hsized] at hin
    exact hold hin
  | ok sized =>
    rw [hsized] at hin
    rcases List.mem_append.mp hin with hin | hin
    · exact hold hin
    · rw [List.mem_singleton.mp hin]
      exact ⟨intent, List.mem_append_right _ List.mem_cons_self, rfl⟩

theorem runIntents_forIntents {knobs : AllocationKnobs} {positions : Mapping PositionSummary}
    {prices : Mapping ℚ} (deployBudget : ℚ) (intents : List Intent) :
    ForIntents intents (runIntents knobs positions prices deployBudget intents) :=
  Runs.run_induct forIntents_allocateIntent _ intents (by simp [ForIntents])

theorem normalPath_planned {symbols : List String} {report : CycleDecisionReport}
    (h : runNormalPath (decisionPipeline settings universeSelector) input symbols = .ok report)
    (order : Order) (hin : order ∈ report.orderRequests) : Planned input symbols order := by
  obtain ⟨mapped, hmapped, horders⟩ := runNormalPath_ok _ _ h
  rw [horders, selectOrdersForCycle] at hin
  have hrequested := (List.perm_insertionSort RankedBefore _).mem_iff.mp (List.mem_of_mem_take hin)
  obtain ⟨action, haction, horder⟩ := mapped_mem hmapped hrequested
  obtain ⟨price, qty, rfl⟩ := mapAction_orderOf horder
  obtain ⟨intent, hintent, hsymbol⟩ := runIntents_forIntents _ _ action haction
  rw [generateIntents_baseline] at hintent
  split at hintent
  · obtain ⟨symbol, hkept, rfl⟩ := List.mem_map.mp hintent
    obtain ⟨hsorted, hwanted⟩ := List.mem_filter.mp hkept
    refine ⟨side_text action.side, rfl, symbol, (List.mem_insertionSort _).mp hsorted, ?_, ?_⟩
    · simp only [wanted, Bool.and_eq_true, decide_eq_true_eq] at hwanted
      exact hwanted.1.1.1
    · simp only [DecisionPipeline.orderOf, hsymbol, buyIntent, ← normalizeSymbol.eq_1,
        normalizeSymbol_idem]
  · cases hintent

/-- Pairs are found under symbols that are spelled as they should be. -/
theorem pairInfoBySymbol_normal {pairInfo : Option (List PairInfo)} {symbol : String}
    (h : (pairInfoBySymbol pairInfo)[symbol]?.isSome) : normalizeSymbol symbol = symbol := by
  have hfold : ∀ (pairs : List PairInfo) (found : Dict PairInfo),
      (found[symbol]?.isSome → normalizeSymbol symbol = symbol) →
      (pairs.foldl (fun pairs pair => pairs.insert (canonicalSymbol pair.pairSymbol) pair)
        found)[symbol]?.isSome → normalizeSymbol symbol = symbol := by
    intro pairs
    induction pairs with
    | nil => exact fun _ hfound => hfound
    | cons pair pairs ih =>
      refine fun found hfound => ih _ ?_
      rw [Dict.insert_get]
      split
      · next hsame =>
        intro _
        rw [← hsame]
        exact normalizeSymbol_idem pair.pairSymbol
      · exact hfound
  exact hfold _ _ (by simp) h

variable (service : Service) (scores : Mapping ℚ)

/-- A symbol that has a plan was eligible. -/
theorem share_eligible (symbols : List String) (symbol : String) :
    (share service input scores symbols).plans[symbol]?.isSome →
      symbol ∈ eligible input symbols := by
  have hstep (sharing : Sharing) (hkept : symbol ∈ sharing.kept → symbol ∈ eligible input symbols) :
      (sharePass service input scores sharing).plans[symbol]?.isSome →
        symbol ∈ eligible input symbols := by
    intro hplan
    rw [sharePass_plans] at hplan
    split at hplan
    · next hin => exact hkept hin
    · cases hplan
  exact (WhileLoop.run_induct (I := fun _ (sharing : Sharing) =>
      (symbol ∈ sharing.kept → symbol ∈ eligible input symbols) ∧
        (sharing.plans[symbol]?.isSome → symbol ∈ eligible input symbols))
    (fun _ sharing _ hs => ⟨fun hin => hstep sharing hs.1
      ((sharePass_kept service input scores sharing symbol).mp hin), hstep sharing hs.1⟩) _ 0 _
    ⟨id, by simp⟩).2

theorem aggressivePath_planned (symbols : List String) (order : Order)
    (hin : order ∈ (runAggressivePath service input scores symbols).orderRequests) :
    Planned input symbols order := by
  have hmem := (report_orders service input scores symbols).mem_iff.mp
    (List.mem_append_left _ hin)
  obtain ⟨index, hindex, rfl⟩ := List.mem_mapIdx.mp hmem
  have hentry := List.getElem_mem hindex
  rw [Dict.mem_toList] at hentry
  have heligible := share_eligible service scores symbols _ (Option.isSome_of_eq_some hentry)
  obtain ⟨hsymbol, hpair⟩ := List.mem_filter.mp heligible
  rw [Bool.and_eq_true, decide_eq_true_eq] at hpair
  exact ⟨.inl rfl, rfl, _, hsymbol, hpair.2, (pairInfoBySymbol_normal hpair.1).symm⟩

/-- What the pipeline plans is plain, and for symbols of its universe that have a mark. -/
theorem runCycle_planned {report : CycleDecisionReport}
    (h : runCycle (decisionPipeline settings universeSelector) input = .ok report)
    (order : Order) (hin : order ∈ report.orderRequests) :
    Planned input (selectUniverse (decisionPipeline settings universeSelector) input) order := by
  unfold runCycle at h
  cases hscores : scoresOf input with
  | none =>
    rw [hscores] at h
    exact normalPath_planned h order hin
  | some scores =>
    rw [hscores] at h
    obtain rfl := Except.ok.inj h
    exact aggressivePath_planned _ scores _ order hin

theorem runCycle_targets {report : CycleDecisionReport}
    (h : runCycle (decisionPipeline settings universeSelector) input = .ok report) :
    ∀ intent ∈ report.intents, intent.targetNotionalTry.isSome := by
  unfold runCycle at h
  cases hscores : scoresOf input with
  | none =>
    rw [hscores] at h
    obtain ⟨mapped, -, hreport⟩ := Runs.bind_ok h
    obtain rfl := Except.ok.inj hreport
    intro intent hin
    dsimp only at hin
    rw [generateIntents_baseline] at hin
    split at hin
    · obtain ⟨symbol, -, rfl⟩ := List.mem_map.mp hin
      rfl
    · cases hin
  | some scores =>
    rw [hscores] at h
    obtain rfl := Except.ok.inj h
    intro intent hin
    obtain ⟨entry, -, rfl⟩ := List.mem_map.mp hin
    rfl

theorem kernelIntents_placed {intents : List Intent}
    (h : ∀ intent ∈ intents, intent.targetNotionalTry.isSome) :
    ∃ placed, intents.mapM kernelIntentOf = .ok placed := by
  induction intents with
  | nil => exact ⟨[], rfl⟩
  | cons intent intents ih =>
    obtain ⟨target, htarget⟩ := Option.isSome_iff_exists.mp (h intent List.mem_cons_self)
    obtain ⟨placed, hplaced⟩ := ih fun other hin => h other (List.mem_cons_of_mem intent hin)
    simp [List.mapM_cons, kernelIntentOf, htarget, hplaced, bind, Except.bind, pure, Except.pure]

end Planned

section Bootstrap

variable {request : BootstrapRequest}

theorem bootstrapOrder_ok {symbol : String} {order : Order}
    (h : bootstrapOrder request symbol = .ok order) :
    order.symbol = symbol ∧ order.side = "buy" ∧ order.type = "limit" := by
  simp only [bootstrapOrder] at h
  split at h
  · cases h
  · split at h
    · cases h
    · split at h
      · cases h
      · split at h
        · cases h
        · split at h
          · cases h
          · split at h
            · cases h
            · split at h
              · cases h
              · obtain rfl := Except.ok.inj h
                exact ⟨rfl, rfl, rfl⟩

theorem mem_buildIntents {order : Order} (h : order ∈ (buildIntents request).1) :
    ∃ symbol ∈ request.symbols, bootstrapOrder request symbol = .ok order := by
  unfold buildIntents at h
  split at h
  · obtain ⟨result, hresult, horder⟩ := List.mem_filterMap.mp h
    obtain ⟨symbol, hsymbol, rfl⟩ := List.mem_map.mp hresult
    refine ⟨symbol, (List.mem_insertionSort _).mp hsymbol, ?_⟩
    cases hok : bootstrapOrder request symbol with
    | error reason =>
      rw [hok] at horder
      cases horder
    | ok found =>
      rw [hok] at horder
      exact congrArg Except.ok (Option.some.inj horder)
  · cases h

theorem buildIntents_plain (hsymbols : ∀ symbol ∈ request.symbols, normalizeSymbol symbol = symbol)
    (order : Order) (h : order ∈ (buildIntents request).1) : Plain order := by
  obtain ⟨symbol, hsymbol, horder⟩ := mem_buildIntents h
  obtain ⟨rfl, hside, htype⟩ := bootstrapOrder_ok horder
  exact ⟨hsymbols _ hsymbol, .inl hside, htype⟩

end Bootstrap

section Kernel

variable (settings : Settings)
  (universeSelector : List SymbolInfo → List (String × OrderBookSummary) → List String)
  (cycle : Cycle)

def kernelContext : Stage4PlanningContext :=
  buildStage4PlanningContext settings (kernelRequest cycle)

/-- The cycle the kernel asks the pipeline for. -/
def kernelInput : CycleInput :=
  adapterInput cycle.clock (kernelContext settings cycle)
    (universeOf (kernelContext settings cycle).preferredSymbols)

/-- The orders of a report, or those of the kernel's call of the bootstrap. -/
def ordersOf (report : CycleDecisionReport) : List Order :=
  if report.orderRequests ≠ [] then report.orderRequests
  else (buildIntents (adapterBootstrap (kernelContext settings cycle))).1

theorem generateIntents_run {report : CycleDecisionReport} (adapters : Adapters)
    (h : runCycle (decisionPipeline settings universeSelector) (kernelInput settings cycle) =
      .ok report) :
    ∃ intents, (Stage4Planning.generateIntents (decisionPipeline settings universeSelector)
        cycle.clock (kernelContext settings cycle)
        (universeOf (kernelContext settings cycle).preferredSymbols)).run adapters =
      .ok (intents, { adapters with lastDecisionReport := some report }) := by
  obtain ⟨placed, hplaced⟩ := kernelIntents_placed (runCycle_targets h)
  refine ⟨placed, ?_⟩
  rw [kernelInput] at h
  simp only [Stage4Planning.generateIntents, h, Except.mapError, StateT.run_bind]
  change (liftM (report.intents.mapM kernelIntentOf) : Planning _).run
    { adapters with lastDecisionReport := some report } = _
  rw [hplaced]
  rfl

theorem generateIntents_error {e : PlanError} (adapters : Adapters)
    (h : runCycle (decisionPipeline settings universeSelector) (kernelInput settings cycle) =
      .error e) :
    (Stage4Planning.generateIntents (decisionPipeline settings universeSelector)
        cycle.clock (kernelContext settings cycle)
        (universeOf (kernelContext settings cycle).preferredSymbols)).run adapters =
      .error (.pipeline e) := by
  rw [kernelInput] at h
  simp only [Stage4Planning.generateIntents, h]
  rfl

theorem buildOrderIntents_run {report : CycleDecisionReport} (adapters : Adapters)
    (h : adapters.lastDecisionReport = some report) :
    ∃ adapters', adapters'.lastDecisionReport = some report ∧
      (buildOrderIntents buildIntents (kernelContext settings cycle)).run adapters =
        .ok ((ordersOf settings cycle report).map (orderIntentOf cycle.cycleId), adapters') := by
  by_cases hnone : report.orderRequests = []
  · refine ⟨{ adapters with lastBootstrapDropReasons :=
      (buildIntents (adapterBootstrap (kernelContext settings cycle))).2 }, h, ?_⟩
    simp [buildOrderIntents, h, hnone, ordersOf]
    rfl
  · refine ⟨{ adapters with lastBootstrapDropReasons := [] }, h, ?_⟩
    simp [buildOrderIntents, h, hnone, ordersOf]
    rfl

theorem kernelIntents_error {e : PlanError}
    (h : runCycle (decisionPipeline settings universeSelector) (kernelInput settings cycle) =
      .error e) :
    kernelIntents settings universeSelector cycle = .error (.pipeline e) := by
  have hplan := Kernel.plan_error (stage4Kernel (decisionPipeline settings universeSelector)
    cycle.clock buildIntents) (kernelContext settings cycle)
    (generateIntents_error settings universeSelector cycle {} h)
  have hresult : buildStage4KernelPlan (decisionPipeline settings universeSelector) cycle.clock
      buildIntents (kernelRequest cycle) = .error (.pipeline e) := by
    unfold buildStage4KernelPlan
    exact congrArg (· >>= _) hplan
  rw [kernelIntents, hresult]
  rfl

/-- Every order comes through, in the kernel's order. -/
theorem kernelIntents_ok {report : CycleDecisionReport}
    (h : runCycle (decisionPipeline settings universeSelector) (kernelInput settings cycle) =
      .ok report) :
    ∃ orders, kernelIntents settings universeSelector cycle = .ok orders ∧
      (orders.map termsOf).Perm ((ordersOf settings cycle report).map termsOf) := by
  obtain ⟨intents, hgenerate⟩ := generateIntents_run settings universeSelector cycle {} h
  obtain ⟨adapters, hreport, hbuild⟩ :=
    buildOrderIntents_run settings cycle { lastDecisionReport := some report } rfl
  obtain ⟨plan, hplan, hintents⟩ := Kernel.plan_run (stage4Kernel (decisionPipeline settings
    universeSelector) cycle.clock buildIntents) (kernelContext settings cycle) hgenerate hbuild
  have hresult : buildStage4KernelPlan (decisionPipeline settings universeSelector) cycle.clock
      buildIntents (kernelRequest cycle) =
      .ok ⟨plan, report, adapters.lastBootstrapDropReasons⟩ := by
    unfold buildStage4KernelPlan
    refine (congrArg (· >>= _) hplan).trans ?_
    simp only [bind, Except.bind, hreport]
    rfl
  refine ⟨_, by rw [kernelIntents, hresult]; rfl, ?_⟩
  rw [hintents]
  refine translate_perm (fun order horder => ?_) _ _ _
  unfold ordersOf at horder
  split at horder
  · exact (runCycle_planned h order horder).plain
  · refine buildIntents_plain (fun symbol hsymbol => ?_) order horder
    obtain ⟨raw, -, rfl⟩ := List.mem_map.mp hsymbol
    exact normalizeSymbol_idem raw

end Kernel

end KernelOrders
