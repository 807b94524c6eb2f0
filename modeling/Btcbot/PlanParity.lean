import Btcbot.ScaledPlan

/-!
# Planning with and without the kernel

The kernel leaves out the multiplier of the budget and the knobs of the bootstrap; where
they make no difference it submits what the runner would have planned itself.
-/
namespace PlanParity

open PyData AllocationService DecisionPipeline CycleCap AggressivePlan
open PlanningKernel (universeOf universeOf_perm)
open Stage4Planning KernelOrders EqualPurchases ScaledPlan
open Stage4Execute (quantizePrice quantizeQty)

section Mappings

variable {V : Type}

theorem mapKeys_keys {f : String → String} {m : Mapping V} {key : String}
    (h : key ∈ KeyedTable.keys (m.mapKeys f).entries) : ∃ raw, f raw = key := by
  obtain ⟨entry, hentry, rfl⟩ := List.mem_map.mp ((KeyedTable.mem_keys_ofEntries _ key).mp h)
  obtain ⟨old, -, rfl⟩ := List.mem_map.mp hentry
  exact ⟨old.1, rfl⟩

/-- Keys spelled as they should be are spelled so once and for all. -/
theorem mapKeys_normal (m : Mapping V) :
    (m.mapKeys normalizeSymbol).mapKeys normalizeSymbol = m.mapKeys normalizeSymbol := by
  refine mapKeys_fixed fun key hkey => ?_
  obtain ⟨raw, rfl⟩ := mapKeys_keys hkey
  exact normalizeSymbol_idem raw

end Mappings

section Cycles

variable {settings : Settings}
  {universeSelector : List SymbolInfo → List (String × OrderBookSummary) → List String}
  {cycle : Cycle}

theorem activeSymbols_normal {symbol : String} (h : symbol ∈ activeSymbols cycle) :
    normalizeSymbol symbol = symbol := by
  obtain ⟨raw, -, rfl⟩ := List.mem_map.mp h
  exact normalizeSymbol_idem raw

theorem recovered_active {symbol : String} {mark : ℚ}
    (h : tryRecoverSingleMarkPrice cycle = some (symbol, mark)) :
    symbol ∈ activeSymbols cycle ∧ 0 < mark := by
  unfold tryRecoverSingleMarkPrice at h
  cases hchosen : chooseMarkPriceFallbackSymbol (activeSymbols cycle) with
  | none =>
    rw [hchosen] at h
    cases h
  | some chosen =>
    have hactive : chosen ∈ activeSymbols cycle := by
      have hmap : (activeSymbols cycle).map normalizeSymbol = activeSymbols cycle :=
        (List.map_congr_left fun symbol hin => activeSymbols_normal hin).trans (List.map_id _)
      simp only [chooseMarkPriceFallbackSymbol, hmap] at hchosen
      split at hchosen
      · next hin =>
        rw [← Option.some.inj hchosen]
        exact hin
      · exact List.mem_of_head? hchosen
    rw [hchosen] at h
    simp only at h
    split at h
    · cases h
    · next bid ask _ =>
      split at h
      · cases h
      · next hpos =>
        obtain ⟨rfl, rfl⟩ := Prod.mk.inj (Option.some.inj h)
        rw [not_or, not_le, not_le] at hpos
        refine ⟨?_, div_pos (add_pos hpos.1 hpos.2) two_pos⟩
        rw [activeSymbols_normal hactive]
        exact hactive

/-- The marks are those quoted, or one symbol without a quote has been given one. -/
theorem coverage_cases :
    coverage cycle = (quotedPrices cycle,
        (eligibleSymbols cycle).filter (hasMark (quotedPrices cycle))) ∨
    ∃ symbol mark, symbol ∈ activeSymbols cycle ∧ 0 < mark ∧
      (eligibleSymbols cycle).filter (hasMark (quotedPrices cycle)) = [] ∧
      coverage cycle = (mappingOf ((quotedPrices cycle).entries ++ [(symbol, mark)]),
        [symbol]) := by
  unfold coverage
  simp only
  split
  · next hnone =>
    cases hrecovered : tryRecoverSingleMarkPrice cycle with
    | none => exact .inl rfl
    | some recovered =>
      obtain ⟨symbol, mark⟩ := recovered
      obtain ⟨hactive, hpos⟩ := recovered_active hrecovered
      exact .inr ⟨symbol, mark, hactive, hpos, hnone.2, rfl⟩
  · exact .inl rfl

theorem covered_active {symbol : String} (h : symbol ∈ (coverage cycle).2) :
    symbol ∈ activeSymbols cycle := by
  rcases @coverage_cases cycle with hquoted | ⟨found, mark, hactive, -, -, hfound⟩
  · rw [hquoted] at h
    exact List.mem_of_mem_filter (List.mem_of_mem_filter h)
  · rw [hfound] at h
    rw [List.mem_singleton.mp h]
    exact hactive

/-- No symbol that has a mark is active twice. -/
def MarkedOnce (cycle : Cycle) : Prop :=
  ((eligibleSymbols cycle).filter (hasMark (coverage cycle).1)).Nodup

instance (cycle : Cycle) : Decidable (MarkedOnce cycle) :=
  inferInstanceAs (Decidable (List.Nodup _))

theorem covered_nodup (h : MarkedOnce cycle) : (coverage cycle).2.Nodup := by
  rcases @coverage_cases cycle with hquoted | ⟨found, mark, -, -, -, hfound⟩
  · rw [MarkedOnce, hquoted] at h
    rw [hquoted]
    exact h
  · rw [hfound]
    exact List.nodup_singleton found

theorem marks_normal (key : String) (h : key ∈ KeyedTable.keys (coverage cycle).1.entries) :
    normalizeSymbol key = key := by
  have hquotes (key : String) (h : key ∈ KeyedTable.keys (quotedPrices cycle).entries) :
      normalizeSymbol key = key := by
    obtain ⟨raw, rfl⟩ := mapKeys_keys h
    exact normalizeSymbol_idem raw
  rcases @coverage_cases cycle with hquoted | ⟨found, mark, hactive, -, -, hfound⟩
  · rw [hquoted] at h
    exact hquotes key h
  · rw [hfound] at h
    have hkeys := (KeyedTable.mem_keys_ofEntries _ key).mp h
    rw [KeyedTable.keys, List.map_append] at hkeys
    rcases List.mem_append.mp hkeys with hquote | hnew
    · exact hquotes key hquote
    · rw [List.mem_singleton.mp hnew]
      exact activeSymbols_normal hactive

/-- An open purchase that the kernel reads as it stands. -/
def readsAsIs (order : Order) : Bool :=
  normalizeSymbol order.symbol = order.symbol && order.symbol ≠ "" && order.side = "buy" &&
    (order.type.toUpper = "LIMIT" || order.type.toUpper = "MARKET") &&
    strip (order.clientOrderId.getD "None") ≠ ""

/-- The kernel reads every open purchase as it stands. -/
def ReadsPurchases (cycle : Cycle) : Prop :=
  ∀ order ∈ cycle.openOrders, order.side.toUpper = "BUY" → readsAsIs order = true

instance (cycle : Cycle) : Decidable (ReadsPurchases cycle) :=
  inferInstanceAs (Decidable (∀ order ∈ cycle.openOrders, _))

theorem buy_upper : "buy".toUpper = "BUY" := by decide +kernel

theorem viewOf_reads {order : Order} (h : readsAsIs order = true) (nowUtc : DateTime) :
    ∃ view, viewOf order = some view ∧ (openOrderOf nowUtc view).symbol = order.symbol ∧
      (openOrderOf nowUtc view).side = "buy" := by
  simp only [readsAsIs, Bool.and_eq_true, Bool.or_eq_true, decide_eq_true_eq] at h
  obtain ⟨⟨⟨⟨hsymbol, hnamed⟩, hside⟩, htype⟩, hclient⟩ := h
  have hknown : order.type.toUpper ∈ ["LIMIT", "MARKET"] := by
    rcases htype with hlimit | hmarket
    · rw [hlimit]
      exact List.mem_cons_self
    · rw [hmarket]
      exact List.mem_cons_of_mem _ List.mem_cons_self
  have hview : viewOf order = some
      { symbol := order.symbol
        side := "BUY"
        orderType := order.type.toUpper
        price := order.price
        qty := order.qty
        clientOrderId := strip (order.clientOrderId.getD "None")
        status := some order.status } := by
    simp only [viewOf, hsymbol, hnamed, hside, buy_upper, hclient, hknown, List.mem_cons, true_or,
      or_self, not_true_eq_false, if_false]
  refine ⟨_, hview, rfl, ?_⟩
  have hlower : "BUY".toLower = "buy" := by decide +kernel
  exact hlower

/-- Only a purchase is read as one. -/
theorem viewOf_buy {order : Order} {view : PlanningKernel.OpenOrderView} {nowUtc : DateTime}
    (h : viewOf order = some view) (hbuy : (openOrderOf nowUtc view).side = "buy") :
    order.side.toUpper = "BUY" := by
  simp only [viewOf] at h
  split at h
  · cases h
  · split at h
    · cases h
    · next hside =>
      split at h
      · cases h
      · obtain rfl := Option.some.inj h
        have hlower : "SELL".toLower ≠ "buy" := by decide +kernel
        rcases List.mem_cons.mp (not_not.mp hside) with hup | hdown
        · exact hup
        · rw [openOrderOf, List.mem_singleton.mp hdown] at hbuy
          exact absurd hbuy hlower

/-- The kernel's open purchases are of the same symbols. -/
theorem openPurchases_same (h : ReadsPurchases cycle) (nowUtc : DateTime) (symbol : String) :
    (∃ order ∈ (normalizeStage4OpenOrders cycle.openOrders).map (openOrderOf nowUtc),
        order.symbol = symbol ∧ order.side = "buy") ↔
      ∃ order ∈ cycle.openOrders, order.symbol = symbol ∧ order.side = "buy" := by
  constructor
  · rintro ⟨_, hin, hnamed, hbuy⟩
    obtain ⟨view, hview, rfl⟩ := List.mem_map.mp hin
    obtain ⟨order, horder, hread⟩ :=
      List.mem_filterMap.mp ((List.mem_insertionSort _).mp hview)
    have hasis := h order horder (viewOf_buy hread hbuy)
    obtain ⟨found, hfound, hsymbol, -⟩ := viewOf_reads hasis nowUtc
    obtain rfl := Option.some.inj (hfound.symm.trans hread)
    simp only [readsAsIs, Bool.and_eq_true, decide_eq_true_eq] at hasis
    exact ⟨order, horder, hsymbol.symm.trans hnamed, hasis.1.1.2⟩
  · rintro ⟨order, horder, hnamed, hbuy⟩
    have hasis := h order horder (hbuy ▸ buy_upper)
    obtain ⟨view, hview, hsymbol, hside⟩ := viewOf_reads hasis nowUtc
    refine ⟨openOrderOf nowUtc view, List.mem_map.mpr ⟨view, ?_, rfl⟩,
      hsymbol.trans hnamed, hside⟩
    exact (List.mem_insertionSort _).mpr (List.mem_filterMap.mpr ⟨order, horder, hview⟩)

theorem isBought_iff (I : CycleInput) (symbol : String) :
    isBought I symbol = true ↔
      ∃ order ∈ I.openOrders, order.symbol = symbol ∧ order.side = "buy" := by
  simp [isBought]

/-- What the kernel asks the pipeline for is the cycle the runner would ask it for. -/
theorem sameCycle (h : ReadsPurchases cycle) :
    SameCycle (kernelInput settings cycle) (legacyInput settings cycle) := by
  have hpositions : mappingOf (cycle.positions.map fun position =>
        (normalizeSymbol position.symbol, summaryOf position)) =
      mappingOf ((positionsBySymbol cycle).entries.map fun entry =>
        (entry.1, summaryOf entry.2)) := by
    refine mapping_ext ?_
    have hentered := KeyedTable.ofEntries_map (cycle.positions.map fun position =>
      (normalizeSymbol position.symbol, position)) summaryOf
    have hkept : KeyedTable.ofEntries ((positionsBySymbol cycle).entries.map fun entry =>
          (entry.1, summaryOf entry.2)) =
        (positionsBySymbol cycle).entries.map fun entry => (entry.1, summaryOf entry.2) := by
      refine KeyedTable.ofEntries_of_nodup _ ?_
      simpa [KeyedTable.keys, Function.comp_def] using (positionsBySymbol cycle).nodup
    rw [List.map_map] at hentered
    exact hentered.trans hkept.symm
  constructor
  · rfl
  · rfl
  · exact hpositions
  · exact mapKeys_fixed marks_normal
  · intro symbol
    rw [Bool.eq_iff_iff, isBought_iff, isBought_iff]
    exact openPurchases_same h _ symbol
  · rfl
  · rfl
  · rfl
  · cases hscores : cycle.selectionScores with
    | none => simp [kernelInput, kernelContext, adapterInput, buildStage4PlanningContext,
        kernelRequest, legacyInput, aggressiveScores, hscores]
    | some scores => simp [kernelInput, kernelContext, adapterInput, buildStage4PlanningContext,
        kernelRequest, legacyInput, aggressiveScores, hscores, mapKeys_normal]

theorem covered_normal : (coverage cycle).2.map normalizeSymbol = (coverage cycle).2 :=
  (List.map_congr_left fun _ hin => activeSymbols_normal (covered_active hin)).trans
    (List.map_id _)

/-- The universes list the same symbols, where none is listed twice. -/
theorem selectUniverse_perm (hdistinct : MarkedOnce cycle)
    (h : SameCycle (kernelInput settings cycle) (legacyInput settings cycle)) :
    (selectUniverse (decisionPipeline settings universeSelector)
        (kernelInput settings cycle)).Perm
      (selectUniverse (decisionPipeline settings universeSelector)
        (legacyInput settings cycle)) := by
  have hnormal : ∀ symbol ∈ (coverage cycle).2, normalizeSymbol symbol = symbol :=
    fun symbol hin => activeSymbols_normal (covered_active hin)
  have huniverse : (kernelInput settings cycle).preferredSymbols =
      some (universeOf (coverage cycle).2) := by
    simp [kernelInput, kernelContext, adapterInput, buildStage4PlanningContext, kernelRequest,
      covered_normal]
  have hperm := universeOf_perm (covered_nodup hdistinct) hnormal
  by_cases hnone : (coverage cycle).2 = []
  · have hempty : universeOf [] = [] := rfl
    refine List.Perm.of_eq ?_
    simp [selectUniverse, huniverse, hempty, legacyInput, hnone, h.markPrices, h.pairInfo]
  · have hsome : universeOf (coverage cycle).2 ≠ [] :=
      fun hempty => hnone (hempty ▸ hperm).symm.eq_nil
    simp only [selectUniverse, huniverse, legacyInput, Option.getD_some, ne_eq, hsome, hnone,
      not_false_eq_true, if_true]
    exact hperm.map canonicalSymbol

theorem existingKeys_same (h : ReadsPurchases cycle) (nowUtc : DateTime) (symbol : String) :
    (symbol, "buy") ∈ existingKeys
        ((normalizeStage4OpenOrders cycle.openOrders).map (openOrderOf nowUtc)) ↔
      (symbol, "buy") ∈ existingKeys cycle.openOrders := by
  have hnormal (order : Order) (hin : order ∈ cycle.openOrders) (hbuy : order.side = "buy") :
      normalizeSymbol order.symbol = order.symbol := by
    have hreads := h order hin (hbuy ▸ buy_upper)
    simp only [readsAsIs, Bool.and_eq_true, decide_eq_true_eq] at hreads
    exact hreads.1.1.1.1
  have hlisted (orders : List Order)
      (hspelled : ∀ order ∈ orders, order.side = "buy" →
        normalizeSymbol order.symbol = order.symbol) :
      (symbol, "buy") ∈ existingKeys orders ↔
        ∃ order ∈ orders, order.symbol = symbol ∧ order.side = "buy" := by
    rw [existingKeys, List.mem_map]
    refine exists_congr fun order => and_congr_right fun hin => ?_
    rw [Prod.mk.injEq]
    refine and_congr_left fun hbuy => ?_
    rw [hspelled order hin hbuy]
  rw [hlisted _ hnormal, hlisted _ fun order hin hbuy => ?_, openPurchases_same h]
  obtain ⟨other, hother, hsymbol, hside⟩ :=
    (openPurchases_same h nowUtc order.symbol).mp ⟨order, hin, rfl, hbuy⟩
  rw [← hsymbol]
  exact hnormal other hother hside

/-- The runner's call of the bootstrap without the knobs that the kernel leaves out. -/
def unsetBootstrap (settings : Settings) (cycle : Cycle) : BootstrapRequest :=
  { legacyBootstrap settings cycle with
    minOrderNotionalTry := 10
    bootstrapNotionalTry := 50
    maxNotionalPerOrderTry := 0 }

/-- What the budget of the bootstrap comes to on the grid, nothing under the minimum. -/
def bootstrapCoins (request : BootstrapRequest) (symbol : String) : ℚ :=
  match (pairInfoBySymbol (some request.pairInfo))[normalizeSymbol symbol]? with
  | none => 0
  | some pair =>
    let mark := (request.markPrices.get (normalizeSymbol symbol)).getD 0
    let rules := buildExchangeRules pair
    let least := max request.minOrderNotionalTry rules.minNotionalTry
    match bootstrapBudget request least with
    | .error _ => 0
    | .ok budget =>
      if quantizePrice mark rules * quantizeQty (budget / mark) rules < least then 0
      else quantizeQty (budget / mark) rules

/-- The bootstrap may buy the symbol: it has a mark and is not being bought. -/
def mayBuy (request : BootstrapRequest) (symbol : String) : Prop :=
  hasMark request.markPrices symbol = true ∧
    (normalizeSymbol symbol, "buy") ∉ existingKeys request.openOrders

instance (request : BootstrapRequest) (symbol : String) : Decidable (mayBuy request symbol) :=
  inferInstanceAs (Decidable (_ ∧ _))

/-- The fields of an order that are compared. -/
def outcomeOf (result : Except (Option String) Order) : Option (String × String × ℚ × ℚ) :=
  result.toOption.map termsOf

/-- The order of the bootstrap is told by the quantity. -/
theorem bootstrapOrder_coins (request : BootstrapRequest) (symbol : String) :
    outcomeOf (bootstrapOrder request symbol) =
      (pairInfoBySymbol (some request.pairInfo))[normalizeSymbol symbol]?.bind fun pair =>
        if mayBuy request symbol ∧ 0 < bootstrapCoins request symbol then
          some (symbol, "buy", quantizePrice ((request.markPrices.get
            (normalizeSymbol symbol)).getD 0) (buildExchangeRules pair),
            bootstrapCoins request symbol)
        else none := by
  unfold bootstrapOrder bootstrapCoins mayBuy hasMark
  simp only [decide_eq_true_eq]
  cases (pairInfoBySymbol (some request.pairInfo))[normalizeSymbol symbol]? with
  | none => rfl
  | some pair =>
    simp only [Option.bind_some]
    generalize (request.markPrices.get (normalizeSymbol symbol)).getD 0 = mark
    by_cases hmark : mark ≤ 0
    · rw [if_pos hmark, if_neg fun h => not_lt.mpr hmark h.1.1]
      rfl
    · by_cases hopen : (normalizeSymbol symbol, "buy") ∈ existingKeys request.openOrders
      · simp only [if_neg hmark, if_pos hopen]
        rw [if_neg fun h => h.1.2 hopen]
        rfl
      · simp only [if_neg hmark, not_le.mp hmark, hopen, if_false, not_false_eq_true, and_self,
          true_and]
        cases bootstrapBudget request
          (max request.minOrderNotionalTry (buildExchangeRules pair).minNotionalTry) with
        | error reason =>
          rw [if_neg (lt_irrefl 0)]
          rfl
        | ok budget =>
          dsimp only
          have hdown := quantizeQty_le (buildExchangeRules pair) (budget / mark)
          by_cases hshort : quantizePrice mark (buildExchangeRules pair) *
              quantizeQty (budget / mark) (buildExchangeRules pair) <
                max request.minOrderNotionalTry (buildExchangeRules pair).minNotionalTry
          · simp only [if_pos hshort, lt_irrefl, if_false]
            split
            · rfl
            · split
              · rfl
              · rfl
          · simp only [if_neg hshort]
            by_cases hpos : 0 < quantizeQty (budget / mark) (buildExchangeRules pair)
            · rw [if_neg (not_le.mpr (hpos.trans_le hdown)), if_neg (not_le.mpr hpos),
                if_pos hpos]
              rfl
            · rw [if_neg hpos]
              split
              · rfl
              · rw [if_pos (not_lt.mp hpos)]
                rfl

/-- Calls of the bootstrap that come to the same quantity make the same order. -/
theorem bootstrapOrder_same {request other : BootstrapRequest} {symbol : String}
    (hpairs : request.pairInfo = other.pairInfo) (hmarks : request.markPrices = other.markPrices)
    (hkeys : mayBuy request symbol ↔ mayBuy other symbol)
    (hcoins : mayBuy other symbol → bootstrapCoins request symbol = bootstrapCoins other symbol) :
    outcomeOf (bootstrapOrder request symbol) = outcomeOf (bootstrapOrder other symbol) := by
  rw [bootstrapOrder_coins, bootstrapOrder_coins, hpairs, hmarks]
  by_cases hbuy : mayBuy other symbol
  · simp only [hkeys, hcoins hbuy]
  · simp only [hkeys, hbuy, false_and, if_false]

theorem buildIntents_terms (request : BootstrapRequest) :
    ((buildIntents request).1.map termsOf).Perm
      (if request.bootstrapEnabled then
        request.symbols.filterMap fun symbol => outcomeOf (bootstrapOrder request symbol)
      else []) := by
  unfold buildIntents
  split
  · simp only [List.map_filterMap, List.filterMap_map]
    exact (List.perm_insertionSort (· ≤ ·) request.symbols).filterMap _
  · exact List.Perm.nil

/-- A symbol without a mark has no order. -/
theorem outcomeOf_unmarked {request : BootstrapRequest} {symbol : String}
    (h : hasMark request.markPrices symbol = false) :
    outcomeOf (bootstrapOrder request symbol) = none := by
  have hmark : (request.markPrices.get (normalizeSymbol symbol)).getD 0 ≤ 0 := by
    simpa [hasMark] using h
  unfold bootstrapOrder
  simp only [hmark, if_true]
  split
  · rfl
  · rfl

theorem hasMark_recovered {symbol found : String} {mark : ℚ} (hpos : 0 < mark) :
    hasMark (mappingOf ((quotedPrices cycle).entries ++ [(found, mark)])) symbol =
      (hasMark (quotedPrices cycle) symbol || normalizeSymbol symbol = found) := by
  have hget : (mappingOf ((quotedPrices cycle).entries ++ [(found, mark)])).get
        (normalizeSymbol symbol) =
      if found = normalizeSymbol symbol then some mark
      else (quotedPrices cycle).get (normalizeSymbol symbol) := by
    have hentries : (mappingOf ((quotedPrices cycle).entries ++ [(found, mark)])).entries =
        KeyedTable.setItem (quotedPrices cycle).entries found mark := by
      refine (KeyedTable.ofEntries_concat _ _).trans ?_
      rw [KeyedTable.ofEntries_of_nodup _ (quotedPrices cycle).nodup]
    rw [Mapping.get, hentries, KeyedTable.get?_setItem]
    rfl
  rw [hasMark, hget]
  by_cases hsame : found = normalizeSymbol symbol
  · simp [hsame, hpos]
  · simp [hsame, Ne.symm hsame, hasMark]

/-- The covered symbols are the eligible ones that have a mark. -/
theorem covered_eligible (hdistinct : MarkedOnce cycle)
    (hsound : ∀ symbol ∈ (coverage cycle).2, failed cycle symbol = false) :
    (coverage cycle).2 = (eligibleSymbols cycle).filter (hasMark (coverage cycle).1) := by
  rcases @coverage_cases cycle with hquoted | ⟨found, mark, hactive, hpos, hnone, hfound⟩
  · rw [hquoted]
  · rw [MarkedOnce, hfound] at hdistinct
    rw [hfound] at hsound ⊢
    have hin : found ∈ eligibleSymbols cycle := by
      refine List.mem_filter.mpr ⟨hactive, ?_⟩
      rw [hsound found List.mem_cons_self]
      rfl
    have honly : (eligibleSymbols cycle).filter
          (hasMark (mappingOf ((quotedPrices cycle).entries ++ [(found, mark)]))) =
        (eligibleSymbols cycle).filter (· = found) := by
      refine List.filter_congr fun symbol hsymbol => ?_
      have hunmarked := List.filter_eq_nil_iff.mp hnone symbol hsymbol
      rw [hasMark_recovered hpos, activeSymbols_normal (List.mem_of_mem_filter hsymbol),
        Bool.eq_false_iff.mpr hunmarked, Bool.false_or]
    simp only [honly, List.filter_eq] at hdistinct ⊢
    have hcount : (eligibleSymbols cycle).count found = 1 :=
      le_antisymm (List.nodup_replicate.mp hdistinct) (List.count_pos_iff.mpr hin)
    rw [hcount]
    rfl

end Cycles

section Parity

variable (settings : Settings)
  (universeSelector : List SymbolInfo → List (String × OrderBookSummary) → List String)
  (cycle : Cycle)

/-- The symbols the pipeline plans for. -/
def plannedSymbols : List String :=
  selectUniverse (decisionPipeline settings universeSelector) (legacyInput settings cycle)

/-- The two ways of planning see the same symbols and open purchases. -/
structure SeesAlike : Prop where
  distinct : MarkedOnce cycle
  reads : ReadsPurchases cycle
  sound : ∀ symbol ∈ plannedSymbols settings universeSelector cycle,
    0 < markOf (legacyInput settings cycle) symbol → failed cycle symbol = false

/-- The cycle gives them nothing to differ in: the multiplier changes no quantity, and the
bootstrap is off, not reached or comes to the same quantities without its knobs. -/
structure InStep : Prop extends SeesAlike settings universeSelector cycle where
  multiplier : ScaledAlike settings universeSelector (legacyInput settings cycle)
    (plannedSymbols settings universeSelector cycle)
  knobs : settings.stage4BootstrapIntents = false ∨
    PlansOrders settings universeSelector (legacyInput settings cycle)
      (plannedSymbols settings universeSelector cycle) ∨
    ∀ symbol ∈ eligibleSymbols cycle, mayBuy (legacyBootstrap settings cycle) symbol →
      bootstrapCoins (unsetBootstrap settings cycle) symbol =
        bootstrapCoins (legacyBootstrap settings cycle) symbol

/-- Both plan orders with the same symbols, sides, prices and quantities, or both fail. -/
def SamePlan (kernel : Except PlanningError (List Order)) (legacy : Except PlanError (List Order)) :
    Prop :=
  match kernel, legacy with
  | .ok orders, .ok orders' => (orders.map termsOf).Perm (orders'.map termsOf)
  | .error _, .error _ => True
  | _, _ => False

instance (kernel : Except PlanningError (List Order)) (legacy : Except PlanError (List Order)) :
    Decidable (SamePlan kernel legacy) :=
  match kernel, legacy with
  | .ok orders, .ok orders' =>
    inferInstanceAs (Decidable ((orders.map termsOf).Perm (orders'.map termsOf)))
  | .error _, .error _ => .isTrue trivial
  | .ok _, .error _ => .isFalse id
  | .error _, .ok _ => .isFalse id

variable {settings universeSelector cycle}

theorem legacyInput_spelled : Spelled (legacyInput settings cycle) := by
  constructor
  · exact marks_normal
  · intro key hkey
    have hkeys := (KeyedTable.mem_keys_ofEntries _ key).mp hkey
    obtain ⟨entry, hentry, rfl⟩ := List.mem_map.mp hkeys
    obtain ⟨position, hposition, rfl⟩ := List.mem_map.mp hentry
    have hold := (KeyedTable.mem_keys_ofEntries _ position.1).mp
      (List.mem_map.mpr ⟨position, hposition, rfl⟩)
    obtain ⟨raw, hraw, hname⟩ := List.mem_map.mp hold
    obtain ⟨found, -, rfl⟩ := List.mem_map.mp hraw
    rw [← hname]
    exact normalizeSymbol_idem found.symbol

/-- No order of the pipeline is for a failed symbol. -/
theorem pipeline_sound (h : SeesAlike settings universeSelector cycle)
    {report : CycleDecisionReport}
    (hreport : runCycle (decisionPipeline settings universeSelector) (legacyInput settings cycle) =
      .ok report) :
    (report.orderRequests.filter fun order => !failed cycle order.symbol) =
      report.orderRequests := by
  refine List.filter_eq_self.mpr fun order hin => ?_
  obtain ⟨symbol, hsymbol, hmark, hnamed⟩ := (runCycle_planned hreport order hin).origin
  have hfailed := h.sound symbol hsymbol hmark
  rw [failed] at hfailed ⊢
  rw [hnamed, normalizeSymbol_idem, hfailed]
  rfl

/-- The covered symbols are planned for, at a mark, so that they have not failed. -/
theorem covered_sound (h : SeesAlike settings universeSelector cycle) :
    ∀ symbol ∈ (coverage cycle).2, failed cycle symbol = false := by
  rcases @coverage_cases cycle with hquoted | ⟨found, mark, hactive, hpos, -, hfound⟩
  · intro symbol hin
    rw [hquoted] at hin
    have heligible := (List.mem_filter.mp (List.mem_of_mem_filter hin)).2
    simpa using heligible
  · intro symbol hin
    rw [hfound] at hin
    obtain rfl := List.mem_singleton.mp hin
    refine h.sound symbol ?_ ?_
    · have hcanonical : canonicalSymbol symbol = symbol := activeSymbols_normal hactive
      simp [plannedSymbols, selectUniverse, legacyInput, hfound, hcanonical]
    · have hmarked : hasMark (coverage cycle).1 symbol = true := by
        rw [hfound, hasMark_recovered hpos, activeSymbols_normal hactive]
        simp
      simpa [hasMark, markOf, legacyInput, activeSymbols_normal hactive] using hmarked

theorem adapterBootstrap_coins (symbol : String) :
    bootstrapCoins (adapterBootstrap (kernelContext settings cycle)) symbol =
      bootstrapCoins (unsetBootstrap settings cycle) symbol := by
  have hmarks : (adapterBootstrap (kernelContext settings cycle)).markPrices =
      (unsetBootstrap settings cycle).markPrices := mapKeys_fixed marks_normal
  unfold bootstrapCoins
  rw [hmarks]
  rfl

/-- The kernel's call of the bootstrap makes the orders of the runner's without its knobs. -/
theorem adapterBootstrap_terms (h : SeesAlike settings universeSelector cycle) :
    ((buildIntents (adapterBootstrap (kernelContext settings cycle))).1.map termsOf).Perm
      ((buildIntents (unsetBootstrap settings cycle)).1.map termsOf) := by
  refine (buildIntents_terms _).trans (.trans (.of_eq ?_) (buildIntents_terms _).symm)
  have henabled : (adapterBootstrap (kernelContext settings cycle)).bootstrapEnabled =
      (unsetBootstrap settings cycle).bootstrapEnabled := rfl
  have hsymbols : (adapterBootstrap (kernelContext settings cycle)).symbols =
      (eligibleSymbols cycle).filter (hasMark (unsetBootstrap settings cycle).markPrices) :=
    covered_normal.trans (covered_eligible h.distinct (covered_sound h))
  have hmarks : (adapterBootstrap (kernelContext settings cycle)).markPrices =
      (unsetBootstrap settings cycle).markPrices := mapKeys_fixed marks_normal
  have hoption (symbol : String) :
      (if hasMark (unsetBootstrap settings cycle).markPrices symbol then
        outcomeOf (bootstrapOrder (adapterBootstrap (kernelContext settings cycle)) symbol)
        else none) =
      outcomeOf (bootstrapOrder (unsetBootstrap settings cycle) symbol) := by
    split
    · refine bootstrapOrder_same rfl hmarks ?_ fun _ => adapterBootstrap_coins symbol
      rw [mayBuy, mayBuy, hmarks]
      exact and_congr_right fun _ => not_congr (existingKeys_same h.reads _ _)
    · next hunmarked => exact (outcomeOf_unmarked (Bool.eq_false_iff.mpr hunmarked)).symm
  rw [hsymbols, henabled, List.filterMap_filter]
  simp only [hoption]
  rfl

/-- The bootstrap plans the same orders where it comes to the same quantities without its
knobs. -/
theorem bootstrap_same (h : SeesAlike settings universeSelector cycle)
    (hknobs : settings.stage4BootstrapIntents = false ∨
      ∀ symbol ∈ eligibleSymbols cycle, mayBuy (legacyBootstrap settings cycle) symbol →
        bootstrapCoins (unsetBootstrap settings cycle) symbol =
          bootstrapCoins (legacyBootstrap settings cycle) symbol) :
    ((buildIntents (adapterBootstrap (kernelContext settings cycle))).1.map termsOf).Perm
      ((buildIntents (legacyBootstrap settings cycle)).1.map termsOf) := by
  refine (adapterBootstrap_terms h).trans ?_
  refine (buildIntents_terms _).trans (.trans (.of_eq ?_) (buildIntents_terms _).symm)
  have henabled : (unsetBootstrap settings cycle).bootstrapEnabled =
      (legacyBootstrap settings cycle).bootstrapEnabled := rfl
  rw [henabled]
  split
  · next hon =>
    refine List.filterMap_congr fun symbol hin => ?_
    refine bootstrapOrder_same rfl rfl Iff.rfl fun hbuy => ?_
    rcases hknobs with hoff | hcoins
    · exact absurd hon (Bool.eq_false_iff.mp hoff)
    · exact hcoins symbol hin hbuy
  · rfl

/-- Without the kernel the cycle submits the pipeline's orders, or the bootstrap's where there
are none. -/
theorem legacyIntents_ok (h : SeesAlike settings universeSelector cycle)
    {report : CycleDecisionReport}
    (hreport : runCycle (decisionPipeline settings universeSelector) (legacyInput settings cycle) =
      .ok report) :
    legacyIntents settings universeSelector cycle =
      .ok (if report.orderRequests ≠ [] then report.orderRequests
        else (buildIntents (legacyBootstrap settings cycle)).1) := by
  unfold legacyIntents
  refine (congrArg (· >>= _) hreport).trans ?_
  simp only [bind, Except.bind, pipeline_sound h hreport]
  rfl

/-- The kernel's call of the pipeline plans the orders of the runner's with the whole budget. -/
theorem runCycle_kernel (h : SeesAlike settings universeSelector cycle) :
    (runCycle (decisionPipeline settings universeSelector) (kernelInput settings cycle)).map
        CycleDecisionReport.orderRequests =
      (runCycle (decisionPipeline settings universeSelector)
        (whole (legacyInput settings cycle))).map CycleDecisionReport.orderRequests := by
  have hcycle := @sameCycle settings cycle h.reads
  have hwhole : SameCycle (kernelInput settings cycle) (whole (legacyInput settings cycle)) :=
    ⟨hcycle.nowTs, hcycle.balances, hcycle.positions, hcycle.markPrices, hcycle.bought,
      hcycle.pairInfo, hcycle.bootstrapEnabled, hcycle.liveMode, hcycle.scores⟩
  exact runCycle_same hwhole (@selectUniverse_perm _ universeSelector _ h.distinct hcycle) rfl

/-- Where the cycle gives the two nothing to differ in, planning with the kernel is planning
without it. -/
theorem kernel_plans_legacy (h : InStep settings universeSelector cycle) :
    SamePlan (kernelIntents settings universeSelector cycle)
      (legacyIntents settings universeSelector cycle) := by
  have hrun := (runCycle_kernel h.toSeesAlike).trans
    (runCycle_whole legacyInput_spelled h.multiplier)
  cases hlegacy : runCycle (decisionPipeline settings universeSelector)
      (legacyInput settings cycle) with
  | error e =>
    cases hkernel : runCycle (decisionPipeline settings universeSelector)
        (kernelInput settings cycle) with
    | error e' =>
      rw [kernelIntents_error _ _ _ hkernel, legacyIntents, hlegacy]
      trivial
    | ok report =>
      rw [hkernel, hlegacy] at hrun
      cases hrun
  | ok report =>
    cases hkernel : runCycle (decisionPipeline settings universeSelector)
        (kernelInput settings cycle) with
    | error e =>
      rw [hkernel, hlegacy] at hrun
      cases hrun
    | ok report' =>
      rw [hkernel, hlegacy] at hrun
      have horders : report'.orderRequests = report.orderRequests := Except.ok.inj hrun
      obtain ⟨orders, hintents, hperm⟩ := kernelIntents_ok _ _ _ hkernel
      rw [hintents, legacyIntents_ok h.toSeesAlike hlegacy]
      refine hperm.trans ?_
      rw [ordersOf, horders]
      split
      · exact List.Perm.refl _
      · next hnone =>
        refine bootstrap_same h.toSeesAlike ?_
        rcases h.knobs with hoff | hplans | hcoins
        · exact .inl hoff
        · exact absurd (runCycle_plans legacyInput_spelled hplans hlegacy) hnone
        · exact .inr hcoins

/-- One pair at 100, with an open sale of it, and nothing held. -/
def oneSymbol (tryCash multiplier : ℚ) : Cycle where
  cycleId := "c1"
  cycleNow := ⟨0, true⟩
  clock := ⟨0, true⟩
  symbols := ["BTC_TRY"]
  selectionScores := none
  failedSymbols := []
  quotes := ⟨[("BTC_TRY", 100)], by decide⟩
  fetchOrderbook _ := none
  tryCash := tryCash
  positions := []
  openOrders := [
    { symbol := "BTCTRY", side := "sell", type := "limit", price := 110, qty := 1, status := "open",
      createdAt := ⟨0, true⟩, updatedAt := ⟨0, true⟩, clientOrderId := some "open-1" }]
  pairInfo := [bitcoin]
  orderbooks := Mapping.empty
  liveMode := true
  effectiveKillSwitch := false
  positionSizingMultiplier := multiplier

/-- With a quarter of the budget the kernel still spends twice what the runner would, and
where the cash is under its target it buys for the bootstrap's own 50 instead of the 100
configured. -/
theorem kernel_drops_budget_and_knobs :
    ¬ SamePlan (kernelIntents { symbols := ["BTCTRY"] } (fun _ _ => []) (oneSymbol 1000 (1 / 4)))
      (legacyIntents { symbols := ["BTCTRY"] } (fun _ _ => []) (oneSymbol 1000 (1 / 4))) ∧
    ¬ SamePlan
      (kernelIntents { symbols := ["BTCTRY"], stage5BootstrapNotionalTry := 100 } (fun _ _ => [])
        (oneSymbol 200 1))
      (legacyIntents { symbols := ["BTCTRY"], stage5BootstrapNotionalTry := 100 } (fun _ _ => [])
        (oneSymbol 200 1)) := by
  constructor
  · decide +kernel
  · decide +kernel

end Parity

end PlanParity
